import FaultCodec.Log.Filter
import FaultCodec.Text.Blank
import FaultCodec.Text.Wordlike

/-!
# Log filter directives

A directive says up to which level the events of a target, of a span or with certain fields are
kept: `target[span{field}]=level`, where every part may be missing. It is scanned without the blanks
around it, but its parts are cut out of the text with the blanks, at the offsets in bytes that the
scan has found. A field may have a value, which is a pattern; the language of patterns is a
parameter.
-/

namespace FaultCodec
namespace Log

namespace Threshold

def ofNumber? : Nat → Option Threshold
  | 0 => some none
  | 1 => some (some .error)
  | 2 => some (some .warn)
  | 3 => some (some .info)
  | 4 => some (some .debug)
  | 5 => some (some .trace)
  | _ => none

/-- The names are the same in upper and lower case. -/
def ofName? (cs : List Char) : Option Threshold :=
  let name := String.ofList (cs.map Char.toLower)
  if name = "off" then some none
  else if name = "error" then some (some .error)
  else if name = "warn" then some (some .warn)
  else if name = "info" then some (some .info)
  else if name = "debug" then some (some .debug)
  else if name = "trace" then some (some .trace)
  else none

/-- The value of decimal digits, if there are any and it fits into 64 bits. -/
def digits? (cs : List Char) : Option Nat :=
  if cs.isEmpty || cs.any (!·.isDigit) then none
  else
    let n := cs.foldl (fun n c => n * 10 + (c.toNat - '0'.toNat)) 0
    if n < UInt64.size then some n else none

/-- A level is a name or a number, which may have a plus sign. -/
def ofText? (cs : List Char) : Option Threshold :=
  let number := match cs with
    | '+' :: rest => digits? rest
    | _ => digits? cs
  (number.bind ofNumber?).orElse fun _ => ofName? cs

end Threshold

inductive DirectiveError where
  | directive
  | level
  /-- The value of a field is not a pattern. -/
  | field (diagnostic : String)
  /-- A part begins or ends inside a character of the text with the blanks. -/
  | offset
  deriving Repr, DecidableEq

def DirectiveError.message : DirectiveError → String
  | .directive => "invalid filter directive"
  | .level => "error parsing level filter: expected one of " ++
      "\"off\", \"error\", \"warn\", \"info\", \"debug\", \"trace\", or a number 0-5"
  | .field diagnostic => "invalid field filter: " ++ diagnostic
  | .offset => "byte index is not a char boundary"

/-- A field that a directive asks for, possibly with a value. -/
structure FieldMatch where
  name : String
  hasValue : Bool
  deriving Repr, DecidableEq

structure Directive where
  threshold : Threshold := some .trace
  target : Option String := none
  span : Option String := none
  fields : List FieldMatch := []
  deriving Repr, DecidableEq

namespace Directive

/-- The text behind an offset in bytes, unless that is inside a character. -/
def dropBytes (n : Nat) : List Char → Except DirectiveError (List Char)
  | [] => if n = 0 then .ok [] else .error .offset
  | c :: cs =>
    if n = 0 then .ok (c :: cs)
    else if c.utf8Size ≤ n then dropBytes (n - c.utf8Size) cs
    else .error .offset

/-- The text before an offset in bytes, unless that is inside a character. -/
def takeBytes (n : Nat) : List Char → Except DirectiveError (List Char)
  | [] => if n = 0 then .ok [] else .error .offset
  | c :: cs =>
    if n = 0 then .ok []
    else if c.utf8Size ≤ n then (takeBytes (n - c.utf8Size) cs).map (c :: ·)
    else .error .offset

/-- The part of a text between two offsets in bytes. -/
def slice (text : List Char) (start stop : Nat) : Except DirectiveError (List Char) := do
  takeBytes (stop - start) (← dropBytes start text)

/-- Where the scan stands; a part that has been begun keeps the offset of its start. -/
inductive State where
  | start
  | levelOrTarget (begun : Nat)
  | span (begun : Nat)
  | field (begun : Nat)
  | afterField
  | afterSpan
  | level (begun : Nat)
  deriving Repr, DecidableEq

/-- The characters that a directive may start with, apart from the bracket of a span. -/
def mayStart (c : Char) : Bool := c = '-' || c = ':' || c = '_' || Text.isWordlike c

section Reading

-- the diagnostic of a value that is not a pattern
variable (badPattern? : String → Option String)

/-- The field of a name, which may have a value behind a sign of equality. What follows a second
sign is not looked at. -/
def fieldOf (cs : List Char) : Except DirectiveError FieldMatch :=
  match cs.splitOn '=' with
  | name :: value :: _ =>
    match badPattern? (String.ofList value) with
    | none => .ok ⟨String.ofList name, true⟩
    | some diagnostic => .error (.field diagnostic)
  | _ => .ok ⟨String.ofList cs, false⟩

/-- One character of the scan, at its offset. -/
def step (text : List Char) (draft : Directive) (state : State) (offset : Nat) (c : Char) :
    Except DirectiveError (Directive × State) :=
  match state with
  | .start =>
    if c = '[' then .ok (draft, .span (offset + 1))
    else if mayStart c then .ok (draft, .levelOrTarget offset)
    else .error .directive
  | .levelOrTarget begun =>
    if c = '=' || c = '[' then do
      let target := some (String.ofList (← slice text begun offset))
      let next := if c = '=' then .level (offset + 1) else .span (offset + 1)
      return ({ draft with target }, next)
    else .ok (draft, state)
  | .span begun =>
    if c = ']' then do
      let name ← slice text begun offset
      return ({ draft with span := some (String.ofList name) }, .afterSpan)
    else if c = '\x7b' then do
      let name ← slice text begun offset
      let span := if name.isEmpty then none else some (String.ofList name)
      return ({ draft with span }, .field (offset + 1))
    else .ok (draft, state)
  | .field begun =>
    if c = '\x7d' then do
      let text ← slice text begun offset
      if text.isEmpty then .error .directive
      else
        let field ← fieldOf badPattern? text
        return ({ draft with fields := draft.fields ++ [field] }, .afterField)
    else .ok (draft, state)
  | .afterField => if c = ']' then .ok (draft, .afterSpan) else .error .directive
  | .afterSpan => if c = '=' then .ok (draft, .level (offset + 1)) else .error .directive
  | .level _ => .ok (draft, state)

/-- The level that a directive ends with; every level if there is none. -/
def finishLevel (draft : Directive) (cs : List Char) : Except DirectiveError Directive :=
  if cs.isEmpty then .ok { draft with threshold := some .trace }
  else match Threshold.ofText? cs with
    | some threshold => .ok { draft with threshold }
    | none => .error .level

/-- The end of the scan. A directive of one word is a level, or else a target of which every level
is kept. -/
def finish (text : List Char) (draft : Directive) : State → Except DirectiveError Directive
  | .levelOrTarget begun => do
    let word ← dropBytes begun text
    match Threshold.ofText? word with
    | some threshold => return { draft with threshold, target := none }
    | none => return { draft with target := some (String.ofList word) }
  | .level begun => do finishLevel draft (← dropBytes begun text)
  | .afterSpan => .ok draft
  | _ => .error .directive

def scan (text : List Char) (draft : Directive) (state : State) (offset : Nat) :
    List Char → Except DirectiveError Directive
  | [] => finish text draft state
  | c :: cs => do
    let (draft, state) ← step badPattern? text draft state offset c
    scan text draft state (offset + c.utf8Size) cs

def parse (text : List Char) : Except DirectiveError Directive :=
  scan badPattern? text {} .start 0 (Text.trimEnd (Text.trimStart text))

end Reading

end Directive
end Log
end FaultCodec
