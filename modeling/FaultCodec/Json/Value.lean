import FaultCodec.Json.Text

/-!
# JSON values

The values that the library writes. Objects keep their members in the order in which they are given.
The text is compact: no blanks, and strings escaped no more than needed.
-/

namespace FaultCodec
namespace Json

inductive Value where
  | null
  | boolean (b : Bool)
  | number (n : Nat)
  | string (s : String)
  | list (items : List Value)
  | object (members : List (String × Value))

namespace Value

mutual

def render : Value → String
  | .null => "null"
  | .boolean b => if b then "true" else "false"
  | .number n => Nat.repr n
  | .string s => quote s
  | .list items => "[" ++ renderItems items ++ "]"
  | .object members => "\x7b" ++ renderMembers members ++ "\x7d"

def renderItems : List Value → String
  | [] => ""
  | [v] => v.render
  | v :: w :: rest => v.render ++ "," ++ renderItems (w :: rest)

def renderMembers : List (String × Value) → String
  | [] => ""
  | [m] => renderMember m
  | m :: n :: rest => renderMember m ++ "," ++ renderMembers (n :: rest)

def renderMember : String × Value → String
  | (name, v) => quote name ++ ":" ++ v.render

end

def bytes (v : Value) : List UInt8 := Text.Utf8.bytes v.render

end Value
end Json
end FaultCodec
