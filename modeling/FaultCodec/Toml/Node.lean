import FaultCodec.Mismatch

/-!
# TOML trees

A document as a tree of values, each with the place where it was written. A place is given by how
many characters were left at its start and at its end. A table that no header and no braces spell
out has no place of its own. Tables keep their entries in the order of the document.
-/

namespace FaultCodec
namespace Toml

/-- The characters left at the start and at the end of a part of the document. -/
structure Span where
  atStart : Nat
  atEnd : Nat
  deriving Repr, DecidableEq

def Span.between (before after : List Char) : Span := ⟨before.length, after.length⟩

/-- A part of a key, and where it was written. -/
structure Key where
  name : String
  span : Span
  deriving Repr, DecidableEq

/-- How a table came about: by a header of its own or braces, by the header of a table below it, or
by a dotted key. -/
inductive Form where
  | explicit
  | implicit
  | dotted
  deriving Repr, DecidableEq

inductive Node where
  | string (span : Span) (text : String)
  | integer (span : Span) (n : Int)
  | float (span : Span) (text : String)
  | boolean (span : Span) (b : Bool)
  | datetime (span : Span)
  | array (span : Span) (items : List Node)
  | tables (span : Option Span) (items : List Node)
  | table (span : Option Span) (isInline : Bool) (form : Form) (entries : List (Key × Node))
  deriving Repr

abbrev Entries := List (Key × Node)

namespace Node

def span? : Node → Option Span
  | string s _ => some s
  | integer s _ => some s
  | float s _ => some s
  | boolean s _ => some s
  | datetime s => some s
  | array s _ => some s
  | tables s _ => s
  | table s _ _ _ => s

/-- What a value is called in a mismatch. -/
def found : Node → Found
  | string _ text => .string text
  | integer _ n => .integer n
  | float _ text => .float text
  | boolean _ b => .boolean b
  | datetime _ => .map
  | array _ _ => .sequence
  | tables _ _ => .sequence
  | table _ _ _ _ => .map

def typeName : Node → String
  | string _ _ => "string"
  | integer _ _ => "integer"
  | float _ _ => "float"
  | boolean _ _ => "boolean"
  | datetime _ => "datetime"
  | array _ _ => "array"
  | tables _ _ => "array of tables"
  | table _ isInline _ _ => if isInline then "inline table" else "table"

end Node

namespace Entries

def find? (es : Entries) (name : String) : Option Node :=
  (List.find? (fun e => e.1.name = name) es).map Prod.snd

/-- Puts another value in the place of a name that is there. -/
def replace (es : Entries) (name : String) (node : Node) : Entries :=
  es.map fun e => if e.1.name = name then (e.1, node) else e

def erase (es : Entries) (name : String) : Entries := es.filter fun e => e.1.name ≠ name

end Entries
end Toml
end FaultCodec
