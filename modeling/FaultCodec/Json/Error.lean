import FaultCodec.Mismatch

/-!
# Errors of the JSON reader

An error keeps its cause and how many bytes of the input were left when it arose. The line and the
column are computed from that only when the error is shown, so readers work on what is left of the
input and nothing else.
-/

namespace FaultCodec
namespace Json

/-- Why bytes are not the JSON text of the value that is asked for. -/
inductive Problem where
  | endInList
  | endInObject
  | endInString
  | endInValue
  | expectedColon
  | expectedListCommaOrEnd
  | expectedObjectCommaOrEnd
  | expectedIdent
  | expectedValue
  | keyMustBeString
  | trailingComma
  | trailingCharacters
  | invalidNumber
  | numberOutOfRange
  | invalidEscape
  | invalidCodePoint
  | controlCharacter
  | loneSurrogate
  | unexpectedEndOfHexEscape
  | mismatch (m : Mismatch)
  deriving Repr, DecidableEq

def Problem.message : Problem → String
  | .endInList => "EOF while parsing a list"
  | .endInObject => "EOF while parsing an object"
  | .endInString => "EOF while parsing a string"
  | .endInValue => "EOF while parsing a value"
  | .expectedColon => "expected `:`"
  | .expectedListCommaOrEnd => "expected `,` or `]`"
  | .expectedObjectCommaOrEnd => "expected `,` or `\x7d`"
  | .expectedIdent => "expected ident"
  | .expectedValue => "expected value"
  | .keyMustBeString => "key must be a string"
  | .trailingComma => "trailing comma"
  | .trailingCharacters => "trailing characters"
  | .invalidNumber => "invalid number"
  | .numberOutOfRange => "number out of range"
  | .invalidEscape => "invalid escape"
  | .invalidCodePoint => "invalid unicode code point"
  | .controlCharacter => "control character (\\u0000-\\u001F) found while parsing a string"
  | .loneSurrogate => "lone leading surrogate in hex escape"
  | .unexpectedEndOfHexEscape => "unexpected end of hex escape"
  | .mismatch m => m.message

/-- A problem and the number of bytes that were left when it arose. -/
structure Error where
  problem : Problem
  left : Nat
  deriving Repr, DecidableEq

namespace Error

/-- The bytes that were read before the error arose. -/
def consumed (input : List UInt8) (e : Error) : List UInt8 := input.take (input.length - e.left)

/-- Lines count from one. -/
def line (input : List UInt8) (e : Error) : Nat := (e.consumed input).count 0x0A + 1

/-- The number of bytes since the last line feed. -/
def column (input : List UInt8) (e : Error) : Nat :=
  ((e.consumed input).reverse.takeWhile (· != 0x0A)).length

def message (input : List UInt8) (e : Error) : String :=
  e.problem.message ++ " at line " ++ toString (e.line input) ++ " column " ++
    toString (e.column input)

end Error

/-- Reads a value off the front of the bytes and gives what is left. -/
abbrev Reader (α : Type) := List UInt8 → Except Error (α × List UInt8)

/-- The problem lies right before what is left. -/
def failAt {α : Type} (p : Problem) (rest : List UInt8) : Except Error α :=
  .error ⟨p, rest.length⟩

/-- The problem is the next byte, if there is one. -/
def failOn {α : Type} (p : Problem) (rest : List UInt8) : Except Error α :=
  .error ⟨p, rest.length - 1⟩

end Json
end FaultCodec
