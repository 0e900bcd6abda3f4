import FaultCodec.Toml.Diagnostic

/-!
# Typed TOML values

Readers that turn nodes into the values that records are made of, and into records themselves. A
record may be written as a table, whose unknown entries are skipped, or as an array of its fields in
their order. Entries are read in the order of the document, so the first misfit decides about the
error; it takes the place of the innermost value around it that has one.
-/

namespace FaultCodec
namespace Toml

abbrev Reader (α : Type) := Node → Except Error α

def within {α : Type} (place : Option Span) : Except Error α → Except Error α
  | .ok a => .ok a
  | .error e => .error (e.within place)

def refuse {α : Type} (m : Mismatch) : Except Error α := .error { problem := .mismatch m }

def readText : Reader String
  | .string _ text => .ok text
  | node => refuse (.wrongType node.found "a string")

/-- A whole number that is not negative; `expected` names what the number is for. -/
def readUnsigned (expected : String) : Reader UInt64
  | .integer _ n =>
    if n < 0 then refuse (.wrongValue (.integer n) expected) else .ok (UInt64.ofNat n.toNat)
  | node => refuse (.wrongType node.found expected)

def choose {α : Type} (choices : List (String × α)) (name : String) : Except Error α :=
  match choices.lookup name with
  | some a => .ok a
  | none => refuse (.unknownChoice name (choices.map Prod.fst))

/-- Makes sure that a choice comes with nothing else: what stands for nothing is an empty table, or
an empty array in its place. -/
def endChoice : Reader Unit
  | .array span items =>
    if items.isEmpty then .ok () else .error ⟨.expectedEmptyTable, span⟩
  | .tables span items =>
    if items.isEmpty then .ok () else .error ⟨.expectedEmptyArray, span⟩
  | .table span _ _ entries =>
    if entries.isEmpty then .ok () else .error ⟨.expectedEmptyTable, span⟩
  | node => .error ⟨.expectedTable node.typeName, node.span?⟩

/-- One of some names: a string, or a table with that name for its only entry. -/
def readChoice {α : Type} (choices : List (String × α)) : Reader α
  | .string _ name => choose choices name
  | .table _ _ _ entries =>
    match entries with
    | [] => .error { problem := .wantedOneFoundNone }
    | [(key, value)] => do
      let a ← within (some key.span) (choose choices key.name)
      endChoice value
      return a
    | _ => .error { problem := .wantedOneFoundMore }
  | _ => .error { problem := .wantedStringOrTable }

def into {α σ : Type} (read : Reader α) (put : α → σ) : Reader σ := fun node =>
  (read node).map put

/-- A field of a record: its name, and how its value is read into a draft. -/
structure Field (σ : Type) where
  name : String
  read : σ → Reader σ

/-- A record: what it is called in messages, its fields in order, the empty draft, and the record of
a draft, or the name of a field that the draft lacks. -/
structure Record (σ α : Type) where
  title : String
  fields : List (Field σ)
  blank : σ
  finish : σ → Except String α

namespace Record

variable {σ α : Type}

/-- What an array of too few elements was to be. -/
def listTitle (r : Record σ α) : String :=
  r.title ++ " with " ++ toString r.fields.length ++ " elements"

def readEntry (r : Record σ α) (draft : σ) (entry : Key × Node) : Except Error σ :=
  match r.fields.find? (·.name = entry.1.name) with
  | none => .ok draft
  | some field =>
    within (entry.2.span?.or (some entry.1.span)) (field.read draft entry.2)

def ofEntries (r : Record σ α) (entries : Entries) : Except Error α := do
  match r.finish (← entries.foldlM r.readEntry r.blank) with
  | .ok a => .ok a
  | .error name => refuse (.missingMember name)

/-- Reads elements into the fields in their order; further elements are skipped. -/
def readElements : List (Field σ) → List Node → σ → Except Error σ
  | field :: fields, node :: nodes, draft => do
    readElements fields nodes (← within node.span? (field.read draft node))
  | _, _, draft => .ok draft

def ofElements (r : Record σ α) (nodes : List Node) : Except Error α := do
  match r.finish (← readElements r.fields nodes r.blank) with
  | .ok a => .ok a
  | .error name =>
    refuse (.wrongLength (r.fields.findIdx (·.name = name)) r.listTitle)

/-- Reads a record. A date is a table without entries that are known. -/
def read (r : Record σ α) : Reader α
  | .table _ _ _ entries => r.ofEntries entries
  | .datetime _ => r.ofEntries []
  | .array _ items => r.ofElements items
  | .tables _ items => r.ofElements items
  | node => refuse (.wrongType node.found r.title)

end Record
end Toml
end FaultCodec
