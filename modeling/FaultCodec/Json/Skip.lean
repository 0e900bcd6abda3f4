import FaultCodec.Json.Number
import FaultCodec.Json.Text

/-!
# Stepping over a value

A member that a record does not know may hold any well-formed value. It is stepped over without
being built: strings are not decoded, numbers are not evaluated and members may repeat. The number
of bytes bounds the depth of the recursion.
-/

namespace FaultCodec
namespace Json

/-- The rest of a literal name whose first letter has been read. -/
def expectIdent : List UInt8 → List UInt8 → Except Error (List UInt8)
  | [], rest => .ok rest
  | _ :: _, [] => failAt .endInValue []
  | w :: word, b :: rest => if b = w then expectIdent word rest else failAt .expectedIdent rest

/-- What is left of `null`, `true` and `false` after their first letters. -/
def identTail (word : String) : List UInt8 := Text.Utf8.bytes word

def expectColon (s : List UInt8) : Except Error (List UInt8) :=
  match skipSpace s with
  | Byte.colon :: rest => .ok rest
  | [] => failOn .endInObject []
  | rest => failOn .expectedColon rest

/-- A value that is neither a list nor an object. -/
def skipScalar : List UInt8 → Except Error (List UInt8)
  | [] => failOn .endInValue []
  | Byte.lowerN :: rest => expectIdent (identTail "ull") rest
  | Byte.lowerT :: rest => expectIdent (identTail "rue") rest
  | Byte.lowerF :: rest => expectIdent (identTail "alse") rest
  | Byte.minus :: rest => Number.skipDigits rest
  | Byte.quote :: rest => skipString .plain rest
  | b :: rest =>
    if Byte.isDigit b then Number.skipDigits (b :: rest) else failOn .expectedValue (b :: rest)

def skipName (s : List UInt8) : Except Error (List UInt8) := do
  match skipSpace s with
  | Byte.quote :: rest =>
    let rest ← skipString .plain rest
    expectColon rest
  | [] => failOn .endInObject []
  | rest => failOn .keyMustBeString rest

/-- Steps over the end that may follow an opening bracket at once, or over the items before it. -/
def skipInside (close : UInt8) (atEnd : Problem) (items : List UInt8 → Except Error (List UInt8))
    (s : List UInt8) : Except Error (List UInt8) :=
  match skipSpace s with
  | [] => failOn atEnd []
  | b :: rest => if b = close then .ok rest else items (b :: rest)

/-- Steps over what follows an item: a comma and more items, or the end. -/
def skipBehind (close : UInt8) (atEnd expected : Problem)
    (items : List UInt8 → Except Error (List UInt8)) (s : List UInt8) :
    Except Error (List UInt8) :=
  match skipSpace s with
  | [] => failOn atEnd []
  | b :: rest =>
    if b = Byte.comma then items rest
    else if b = close then .ok rest
    else failOn expected (b :: rest)

mutual

def skipWithin : Nat → List UInt8 → Except Error (List UInt8)
  | 0, s => failOn .expectedValue s
  | depth + 1, s =>
    match skipSpace s with
    | Byte.openBracket :: rest =>
      skipInside Byte.closeBracket .endInList (skipElements depth) rest
    | Byte.openBrace :: rest =>
      skipInside Byte.closeBrace .endInObject (skipMembers depth) rest
    | rest => skipScalar rest

def skipElements : Nat → List UInt8 → Except Error (List UInt8)
  | 0, s => failOn .expectedValue s
  | depth + 1, s => do
    let rest ← skipWithin depth s
    skipBehind Byte.closeBracket .endInList .expectedListCommaOrEnd (skipElements depth) rest

def skipMembers : Nat → List UInt8 → Except Error (List UInt8)
  | 0, s => failOn .expectedValue s
  | depth + 1, s => do
    let value ← skipName s
    let rest ← skipWithin depth value
    skipBehind Byte.closeBrace .endInObject .expectedObjectCommaOrEnd (skipMembers depth) rest

end

/-- Steps over any value; every level of the recursion reads at least one byte. -/
def skipValue (s : List UInt8) : Except Error (List UInt8) := skipWithin (2 * s.length + 2) s

end Json
end FaultCodec
