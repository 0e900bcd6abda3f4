/-!
# Double precision numbers

Non-negative finite doubles as `mantissa * 2 ^ exponent`, in exact arithmetic. Every operation
computes the exact quotient and rounds it once, to the nearest double and to the even one of two.
-/

namespace FaultCodec
namespace Decimal

/-- Powers of two and of ten, as plain natural numbers. -/
def twoTo (k : Nat) : Nat := Nat.pow 2 k

def tenTo (k : Nat) : Nat := Nat.pow 10 k

/-- The double `mantissa * 2 ^ exponent`. -/
structure Double where
  mantissa : Nat
  exponent : Int
  deriving Repr, DecidableEq

namespace Double

def leastExponent : Int := -1074

def greatestExponent : Int := 971

def zero : Double := ⟨0, leastExponent⟩

/-- The quotient rounded to the nearest natural number, a tie to the even one. -/
def roundDiv (num den : Nat) : Nat :=
  let q := num / den
  let r := num % den
  if den < 2 * r ∨ (2 * r = den ∧ q % 2 = 1) then q + 1 else q

/-- The fraction `num / (den * 2 ^ e)`. -/
def scaled (num den : Nat) (e : Int) : Nat × Nat :=
  if 0 ≤ e then (num, den * twoTo e.toNat) else (num * twoTo (-e).toNat, den)

/-- The exponent that gives the quotient a mantissa of 53 bits, but none below the least. -/
def exponentFor (num den : Nat) : Int :=
  let guess : Int := (num.log2 : Int) - den.log2 - 52
  let (n, d) := scaled num den guess
  max leastExponent (if n / d < twoTo 52 then guess - 1 else guess)

/-- The double nearest to `num / den`, if it is in range. -/
def round? (num den : Nat) : Option Double :=
  if num = 0 then some zero
  else
    let e := exponentFor num den
    let (n, d) := scaled num den e
    let m := roundDiv n d
    let (m, e) := if m = twoTo 53 then (twoTo 52, e + 1) else (m, e)
    if greatestExponent < e then none else some ⟨m, e⟩

def fraction (x : Double) : Nat × Nat := scaled x.mantissa 1 (-x.exponent)

def mul? (x y : Double) : Option Double :=
  round? (x.fraction.1 * y.fraction.1) (x.fraction.2 * y.fraction.2)

/-- The quotient is zero where the divisor is. -/
def div? (x y : Double) : Option Double :=
  round? (x.fraction.1 * y.fraction.2) (x.fraction.2 * y.fraction.1)

end Double
end Decimal
end FaultCodec
