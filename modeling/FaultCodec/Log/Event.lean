import FaultCodec.Json.Value

/-!
# Log events

An event has a level, a target, a fixed message and named values, which keep their order. It is
shown as text, one line per line feed in it, or as a JSON object. A computation that logs gives its
events beside its value, in the order in which they were raised.
-/

namespace FaultCodec
namespace Log

inductive Level where
  | error
  | warn
  | info
  | debug
  | trace
  deriving Repr, DecidableEq

namespace Level

/-- The levels from the most to the least severe. -/
def all : List Level := [error, warn, info, debug, trace]

/-- How verbose a level is, from one on. -/
def verbosity : Level → Nat
  | error => 1
  | warn => 2
  | info => 3
  | debug => 4
  | trace => 5

def name : Level → String
  | error => "ERROR"
  | warn => "WARN"
  | info => "INFO"
  | debug => "DEBUG"
  | trace => "TRACE"

/-- The name, right-aligned to five columns. -/
def column (l : Level) : String :=
  String.ofList (List.replicate (5 - l.name.length) ' ') ++ l.name

end Level

/-- A value of an event. -/
inductive Datum where
  | text (s : String)
  | flag (b : Bool)
  deriving Repr, DecidableEq

def Datum.show : Datum → String
  | .text s => s
  | .flag b => if b then "true" else "false"

def Datum.toJson : Datum → Json.Value
  | .text s => .string s
  | .flag b => .boolean b

structure Event where
  level : Level
  target : String
  message : String
  fields : List (String × Datum)
  deriving Repr, DecidableEq

namespace Event

/-- The text form: level, target and message, then every value behind its name. -/
def text (e : Event) : String :=
  e.level.column ++ " " ++ e.target ++ ": " ++ e.message ++
    String.join (e.fields.map fun (name, value) => " " ++ name ++ "=" ++ value.show)

/-- The lines of the text form; a line feed in a value starts a new one. -/
def lines (e : Event) : List String :=
  (e.text.toList.splitOn '\n').map String.ofList

/-- The JSON form, with the message among the fields. -/
def toJson (e : Event) : Json.Value :=
  .object [
    ("level", .string e.level.name),
    ("fields", .object (("message", .string e.message) ::
      e.fields.map fun (name, value) => (name, value.toJson))),
    ("target", .string e.target)]

/-- The names under which the values of an event are known, the message included. -/
def fieldNames (e : Event) : List String := "message" :: e.fields.map Prod.fst

end Event

/-- A value and the events that were raised on the way to it. -/
structure Logged (α : Type) where
  value : α
  events : List Event

namespace Logged

variable {α β : Type}

def quiet (a : α) : Logged α := ⟨a, []⟩

/-- The events of both steps, in order. -/
def bind (x : Logged α) (f : α → Logged β) : Logged β :=
  let y := f x.value
  ⟨y.value, x.events ++ y.events⟩

@[simp] theorem value_quiet (a : α) : (quiet a).value = a := rfl

@[simp] theorem events_quiet (a : α) : (quiet a).events = [] := rfl

@[simp] theorem value_bind (x : Logged α) (f : α → Logged β) :
    (x.bind f).value = (f x.value).value := rfl

@[simp] theorem events_bind (x : Logged α) (f : α → Logged β) :
    (x.bind f).events = x.events ++ (f x.value).events := rfl

@[simp] theorem bind_quiet (a : α) (f : α → Logged β) : (quiet a).bind f = f a := rfl

end Logged
end Log
end FaultCodec
