import FaultCodec.Json.Byte
import FaultCodec.Json.Error
import FaultCodec.Text.Utf8

/-!
# JSON strings

Reading a string is one machine over its bytes, from the byte after the opening quote. The bytes
that it gathers are checked to be UTF-8 when the closing quote has been read. A string whose value
nobody asks for is stepped over by a simpler machine, which looks at the shape of the escapes only.
Writing escapes the quote, the backslash and the control characters, and nothing else.
-/

namespace FaultCodec
namespace Json

/-- Where the machine stands in a string. -/
inductive StringState where
  | plain
  | escape
  /-- After `count` digits of an escape by number, whose value so far is `value`. -/
  | hex (high : Option Nat) (count : Nat) (value : Option Nat)
  /-- After the first half of a surrogate pair. -/
  | half (high : Nat)
  | halfEscape (high : Nat)
  deriving Repr, DecidableEq

namespace StringState

def shortEscape? : UInt8 → Option UInt8
  | Byte.quote => some 0x22
  | Byte.backslash => some 0x5C
  | Byte.slash => some 0x2F
  | Byte.lowerB => some 0x08
  | Byte.lowerF => some 0x0C
  | Byte.lowerN => some 0x0A
  | Byte.lowerR => some 0x0D
  | Byte.lowerT => some 0x09
  | _ => none

/-- The four digits of an escape by number have been read. -/
def finishHex (high : Option Nat) (value : Nat) : Except Problem (List UInt8 × StringState) :=
  match high with
  | none =>
    if 0xDC00 ≤ value ∧ value ≤ 0xDFFF then .error .loneSurrogate
    else if 0xD800 ≤ value ∧ value ≤ 0xDBFF then .ok ([], .half value)
    else .ok (Text.Utf8.encodeChar (Char.ofNat value), .plain)
  | some first =>
    if 0xDC00 ≤ value ∧ value ≤ 0xDFFF then
      .ok (Text.Utf8.encodeChar
        (Char.ofNat ((first - 0xD800) * 0x400 + (value - 0xDC00) + 0x10000)), .plain)
    else .error .loneSurrogate

/-- One byte other than the closing quote: the bytes that it adds to the string and where the
machine stands then. -/
def step : StringState → UInt8 → Except Problem (List UInt8 × StringState)
  | .plain, b =>
    if b = Byte.backslash then .ok ([], .escape)
    else if b < 0x20 then .error .controlCharacter
    else .ok ([b], .plain)
  | .escape, b =>
    match shortEscape? b with
    | some c => .ok ([c], .plain)
    | none => if b = Byte.lowerU then .ok ([], .hex none 0 (some 0)) else .error .invalidEscape
  | .hex high count value, b =>
    let value := value.bind fun v => (Byte.hexDigit? b).map (v * 16 + ·)
    if count < 3 then .ok ([], .hex high (count + 1) value)
    else match value with
      | none => .error .invalidEscape
      | some v => finishHex high v
  | .half high, b =>
    if b = Byte.backslash then .ok ([], .halfEscape high) else .error .unexpectedEndOfHexEscape
  | .halfEscape high, b =>
    if b = Byte.lowerU then .ok ([], .hex (some high) 0 (some 0))
    else .error .unexpectedEndOfHexEscape

end StringState

/-- The bytes of a string, gathered in reverse, up to its closing quote. -/
def gatherString (state : StringState) (gathered : List UInt8) : Reader (List UInt8)
  | [] => failAt .endInString []
  | b :: rest =>
    if state = .plain ∧ b = Byte.quote then .ok (gathered.reverse, rest)
    else match state.step b with
      | .error p => failAt p rest
      | .ok (added, next) => gatherString next (added.reverse ++ gathered) rest

def readString (s : List UInt8) : Except Error (String × List UInt8) := do
  let (bytes, rest) ← gatherString .plain [] s
  match Text.Utf8.text? bytes with
  | some text => .ok (text, rest)
  | none => .error ⟨.invalidCodePoint, rest.length + (bytes.length - Text.Utf8.validLength bytes)⟩

inductive SkipState where
  | plain
  | escape
  | hex (count : Nat) (valid : Bool)
  deriving Repr, DecidableEq

def skipString (state : SkipState) : List UInt8 → Except Error (List UInt8)
  | [] => failAt .endInString []
  | b :: rest =>
    match state with
    | .plain =>
      if b = Byte.quote then .ok rest
      else if b = Byte.backslash then skipString .escape rest
      else if b < 0x20 then failAt .controlCharacter (b :: rest)
      else skipString .plain rest
    | .escape =>
      if (StringState.shortEscape? b).isSome then skipString .plain rest
      else if b = Byte.lowerU then skipString (.hex 0 true) rest
      else failAt .invalidEscape rest
    | .hex count valid =>
      let valid := valid && (Byte.hexDigit? b).isSome
      if count < 3 then skipString (.hex (count + 1) valid) rest
      else if valid then skipString .plain rest
      else failAt .invalidEscape rest

def escapeChar (c : Char) : List Char :=
  if c = '"' then ['\\', '"']
  else if c = '\\' then ['\\', '\\']
  else if c = '\x08' then ['\\', 'b']
  else if c = '\x0c' then ['\\', 'f']
  else if c = '\n' then ['\\', 'n']
  else if c = '\r' then ['\\', 'r']
  else if c = '\t' then ['\\', 't']
  else if c.toNat < 0x10 then ['\\', 'u', '0', '0', '0'] ++ Text.hexDigits c.toNat
  else if c.toNat < 0x20 then ['\\', 'u', '0', '0'] ++ Text.hexDigits c.toNat
  else [c]

def quote (s : String) : String := "\"" ++ String.ofList (s.toList.flatMap escapeChar) ++ "\""

end Json
end FaultCodec
