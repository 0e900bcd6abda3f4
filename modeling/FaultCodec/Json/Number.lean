import FaultCodec.Decimal.Shortest
import FaultCodec.Json.Byte
import FaultCodec.Json.Error

/-!
# JSON numbers

A whole number that fits into 64 bits is read exactly. Any other number is a double: as many leading
digits as fit into 64 bits, scaled by a power of ten. A number whose value nobody asks for is only
checked for its shape.
-/

namespace FaultCodec
namespace Json

open Decimal (Double)

/-- A number as it was read: whole and not negative, whole and negative, or a double. -/
inductive Number where
  | natural (n : Nat)
  | negative (n : Nat)
  | float (below : Bool) (magnitude : Double)
  deriving Repr, DecidableEq

def Number.found : Number → Found
  | .natural n => .integer n
  | .negative n => .integer (-n)
  | .float below magnitude => .float (Decimal.Layout.compact.text below magnitude)

namespace Number

/-- Appends digits to a significand as long as it fits into 64 bits; gives the significand, how many
digits it took and what is left. -/
def absorb (n taken : Nat) : List UInt8 → Nat × Nat × List UInt8
  | [] => (n, taken, [])
  | b :: rest =>
    if Byte.isDigit b ∧ n * 10 + Byte.digit b < UInt64.size then
      absorb (n * 10 + Byte.digit b) (taken + 1) rest
    else (n, taken, b :: rest)

def startsWithDigit : List UInt8 → Bool
  | [] => false
  | b :: _ => Byte.isDigit b

def power (k : Nat) : Option Double := Double.round? (Decimal.tenTo k) 1

/-- The quotient by a power of ten; too small a quotient is zero. -/
def lower (x : Double) (k : Nat) : Double := ((power k).bind x.div?).getD .zero

/-- The significand scaled by a power of ten, in steps of at most 308. -/
def scale? (n : Nat) (e : Int) : Option Double := do
  let x ← Double.round? n 1
  if x.mantissa = 0 then some x
  else if 308 < e then none
  else if 0 ≤ e then (power e.toNat).bind x.mul?
  else if -308 ≤ e then some (lower x (-e).toNat)
  else if -616 ≤ e then some (lower (lower x 308) (-e - 308).toNat)
  else some .zero

def readScaled (below : Bool) (n : Nat) (e : Int) : Reader Number := fun rest =>
  match scale? n e with
  | some x => .ok (.float below x, rest)
  | none => failAt .numberOutOfRange rest

/-- The digits of an exponent, up to the first that makes it too large for 32 bits. -/
def readExponentDigits (below : Bool) (n : Nat) (e : Int) (down : Bool) (k : Nat) : Reader Number
  | [] => readScaled below n (if down then e - k else e + k) []
  | b :: rest =>
    if Byte.isDigit b then
      if k * 10 + Byte.digit b < Decimal.twoTo 31 then
        readExponentDigits below n e down (k * 10 + Byte.digit b) rest
      else if n ≠ 0 ∧ down = false then failAt .numberOutOfRange rest
      else .ok (.float below .zero, rest.dropWhile Byte.isDigit)
    else readScaled below n (if down then e - k else e + k) (b :: rest)

def readExponent (below : Bool) (n : Nat) (e : Int) (s : List UInt8) :
    Except Error (Number × List UInt8) :=
  let (down, digits) := match s with
    | Byte.plus :: rest => (false, rest)
    | Byte.minus :: rest => (true, rest)
    | rest => (false, rest)
  match digits with
  | [] => failAt .endInValue []
  | b :: rest =>
    if Byte.isDigit b then readExponentDigits below n e down (Byte.digit b) rest
    else failAt .invalidNumber rest

/-- An exponent, if its letter is next. -/
def readEnd (below : Bool) (n : Nat) (e : Int) : Reader Number
  | Byte.lowerE :: rest => readExponent below n e rest
  | Byte.upperE :: rest => readExponent below n e rest
  | rest => readScaled below n e rest

def readFraction (below : Bool) (n : Nat) (e : Int) (s : List UInt8) :
    Except Error (Number × List UInt8) :=
  let (n', taken, rest) := absorb n 0 s
  if startsWithDigit rest then readEnd below n' (e - taken) (rest.dropWhile Byte.isDigit)
  else if taken = 0 then
    match rest with
    | [] => failAt .endInValue []
    | _ => failOn .invalidNumber rest
  else readEnd below n' (e - taken) rest

/-- A whole number, unless a point or an exponent follows. -/
def readTail (below : Bool) (n : Nat) : Reader Number
  | Byte.point :: rest => readFraction below n 0 rest
  | Byte.lowerE :: rest => readExponent below n 0 rest
  | Byte.upperE :: rest => readExponent below n 0 rest
  | rest =>
    if below = false then .ok (.natural n, rest)
    else if 0 < n ∧ n ≤ Decimal.twoTo 63 then .ok (.negative n, rest)
    else match Double.round? n 1 with
      | some x => .ok (.float true x, rest)
      | none => failAt .numberOutOfRange rest

/-- A number of more digits than fit into 64 bits. -/
def readLong (below : Bool) (n : Nat) (s : List UInt8) : Except Error (Number × List UInt8) :=
  let extra : Int := (s.takeWhile Byte.isDigit).length
  match s.dropWhile Byte.isDigit with
  | Byte.point :: rest => readFraction below n extra rest
  | rest => readEnd below n extra rest

def readDigits (below : Bool) : Reader Number
  | [] => failAt .endInValue []
  | Byte.zero :: rest =>
    if startsWithDigit rest then failOn .invalidNumber rest else readTail below 0 rest
  | b :: rest =>
    if Byte.isDigit b then
      let (n, _, more) := absorb (Byte.digit b) 0 rest
      if startsWithDigit more then readLong below n more else readTail below n more
    else failAt .invalidNumber rest

def read : Reader Number
  | Byte.minus :: rest => readDigits true rest
  | s => readDigits false s

def skipExponent (s : List UInt8) : Except Error (List UInt8) :=
  let digits := match s with
    | Byte.plus :: rest => rest
    | Byte.minus :: rest => rest
    | rest => rest
  match digits with
  | [] => failAt .invalidNumber []
  | b :: rest =>
    if Byte.isDigit b then .ok (rest.dropWhile Byte.isDigit) else failAt .invalidNumber rest

def skipEnd : List UInt8 → Except Error (List UInt8)
  | Byte.lowerE :: rest => skipExponent rest
  | Byte.upperE :: rest => skipExponent rest
  | rest => .ok rest

def skipTail : List UInt8 → Except Error (List UInt8)
  | Byte.point :: rest =>
    if startsWithDigit rest then skipEnd (rest.dropWhile Byte.isDigit)
    else failOn .invalidNumber rest
  | rest => skipEnd rest

def skipDigits : List UInt8 → Except Error (List UInt8)
  | [] => failAt .invalidNumber []
  | Byte.zero :: rest =>
    if startsWithDigit rest then failOn .invalidNumber rest else skipTail rest
  | b :: rest =>
    if Byte.isDigit b then skipTail (rest.dropWhile Byte.isDigit) else failAt .invalidNumber rest

end Number
end Json
end FaultCodec
