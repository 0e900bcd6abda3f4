/-!
# UTF-8

Decoding is one machine over the bytes. It yields a character for every well-formed sequence and a
gap for every maximal part of a sequence that cannot be completed; a byte that ends such a part is
read again as the first of a new sequence. The strict reader accepts a text without gaps, the
lenient one puts U+FFFD into each.
-/

namespace FaultCodec
namespace Text
namespace Utf8

/-- The bytes of a character: one, two, three or four. -/
def encodeChar (c : Char) : List UInt8 :=
  let n := c.toNat
  if n < 0x80 then [UInt8.ofNat n]
  else if n < 0x800 then [UInt8.ofNat (0xC0 + n / 64), UInt8.ofNat (0x80 + n % 64)]
  else if n < 0x10000 then
    [UInt8.ofNat (0xE0 + n / 4096), UInt8.ofNat (0x80 + n / 64 % 64), UInt8.ofNat (0x80 + n % 64)]
  else
    [UInt8.ofNat (0xF0 + n / 262144), UInt8.ofNat (0x80 + n / 4096 % 64),
      UInt8.ofNat (0x80 + n / 64 % 64), UInt8.ofNat (0x80 + n % 64)]

def encode (cs : List Char) : List UInt8 := cs.flatMap encodeChar

/-- What the machine has read of the current sequence. -/
inductive State where
  | start
  /-- `value` has been gathered, `missing` bytes are to come, the next one from `low` to `high`. -/
  | within (value missing low high : Nat)
  deriving Repr, DecidableEq

/-- The first byte of a sequence: a whole character, the start of one, or a gap. -/
def lead (b : Nat) : List (Option Char) × State :=
  if b < 0x80 then ([some (Char.ofNat b)], .start)
  else if b < 0xC2 then ([none], .start)
  else if b < 0xE0 then ([], .within (b - 0xC0) 1 0x80 0xBF)
  else if b = 0xE0 then ([], .within 0 2 0xA0 0xBF)
  else if b = 0xED then ([], .within 13 2 0x80 0x9F)
  else if b < 0xF0 then ([], .within (b - 0xE0) 2 0x80 0xBF)
  else if b = 0xF0 then ([], .within 0 3 0x90 0xBF)
  else if b < 0xF4 then ([], .within (b - 0xF0) 3 0x80 0xBF)
  else if b = 0xF4 then ([], .within 4 3 0x80 0x8F)
  else ([none], .start)

/-- One step of the machine: what it yields and where it stands. -/
def feed : State → Nat → List (Option Char) × State
  | .start, b => lead b
  | .within value missing low high, b =>
    if low ≤ b ∧ b ≤ high then
      if missing ≤ 1 then ([some (Char.ofNat (value * 64 + b % 64))], .start)
      else ([], .within (value * 64 + b % 64) (missing - 1) 0x80 0xBF)
    else
      let (out, next) := lead b
      (none :: out, next)

/-- The characters and gaps of a byte sequence. -/
def parts : State → List UInt8 → List (Option Char)
  | .start, [] => []
  | .within _ _ _ _, [] => [none]
  | s, b :: bs => (feed s b.toNat).1 ++ parts (feed s b.toNat).2 bs

/-- The text, if there is no gap. -/
def collect : List (Option Char) → Option (List Char)
  | [] => some []
  | none :: _ => none
  | some c :: rest => (collect rest).map (c :: ·)

def decode? (bs : List UInt8) : Option (List Char) := collect (parts .start bs)

/-- The text of any bytes, with U+FFFD for every gap. -/
def decodeLossy (bs : List UInt8) : List Char := (parts .start bs).map (·.getD '\uFFFD')

/-- How many bytes come before the first gap. -/
def validLength (bs : List UInt8) : Nat :=
  (encode (((parts .start bs).takeWhile Option.isSome).filterMap id)).length

def bytes (s : String) : List UInt8 := encode s.toList

def text? (bs : List UInt8) : Option String := (decode? bs).map String.ofList

@[simp] theorem encode_nil : encode [] = [] := rfl

@[simp] theorem encode_cons (c : Char) (cs : List Char) :
    encode (c :: cs) = encodeChar c ++ encode cs := by
  simp [encode]

@[simp] theorem encode_append (a b : List Char) : encode (a ++ b) = encode a ++ encode b := by
  simp [encode]

@[simp] theorem bytes_append (s t : String) : bytes (s ++ t) = bytes s ++ bytes t := by
  simp [bytes]

end Utf8
end Text
end FaultCodec
