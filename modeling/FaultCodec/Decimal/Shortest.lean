import FaultCodec.Decimal.Double

/-!
# Shortest decimal text

The fewest significant digits that still read back as the same double, the nearest of those, and
their layout as text.
-/

namespace FaultCodec
namespace Decimal

/-- The number `digits * 10 ^ exponent`. -/
structure Figure where
  digits : Nat
  exponent : Int
  deriving Repr, DecidableEq

namespace Double

/-- The value in quarters of its unit in the last place, as the fraction `n * up / down`. -/
structure Scale where
  up : Nat
  down : Nat

def scale (x : Double) : Scale :=
  let e := x.exponent - 2
  if 0 ≤ e then ⟨twoTo e.toNat, 1⟩ else ⟨1, twoTo (-e).toNat⟩

/-- Compares `d * 10 ^ k` with `q` quarters: below, equal or above. -/
def compareAt (s : Scale) (d : Nat) (k : Int) (q : Nat) : Ordering :=
  if 0 ≤ k then compare (d * tenTo k.toNat * s.down) (q * s.up)
  else compare (d * s.down) (q * s.up * tenTo (-k).toNat)

/-- The whole number of steps `10 ^ k` in `q` quarters. -/
def floorAt (s : Scale) (k : Int) (q : Nat) : Nat :=
  if 0 ≤ k then q * s.up / (s.down * tenTo k.toNat) else q * s.up * tenTo (-k).toNat / s.down

/-- Whether `d * 10 ^ k` reads back as `x`: it lies between the midpoints to the neighbours, and on
one of them only where the mantissa is even. -/
def readsBack (x : Double) (d : Nat) (k : Int) : Bool :=
  let s := x.scale
  let q := 4 * x.mantissa
  let low := q - (if x.mantissa = twoTo 52 ∧ Double.leastExponent < x.exponent then 1 else 2)
  let even := x.mantissa % 2 = 0
  let aboveLow := match compareAt s d k low with
    | .gt => true
    | .eq => even
    | .lt => false
  let belowHigh := match compareAt s d k (q + 2) with
    | .lt => true
    | .eq => even
    | .gt => false
  aboveLow && belowHigh

/-- The decimal exponent of the leading digit. -/
def leading (x : Double) : Int :=
  let s := x.scale
  let above (i : Nat) : Bool := floorAt s (Int.ofNat i - 329) (4 * x.mantissa) = 0
  match (List.range 640).find? above with
  | some i => Int.ofNat i - 330
  | none => 0

/-- The better of the two neighbours of `x` among the numbers of `n` digits, if one reads back. -/
def figureOf? (x : Double) (n : Nat) : Option Figure :=
  let k := x.leading - (n : Int) + 1
  let d := floorAt x.scale k (4 * x.mantissa)
  match x.readsBack d k, x.readsBack (d + 1) k with
  | true, true =>
    -- the nearer one: twice the value against the sum of the two
    match compareAt x.scale (2 * d + 1) k (8 * x.mantissa) with
    | .lt => some ⟨d + 1, k⟩
    | .gt => some ⟨d, k⟩
    | .eq => some ⟨if d % 2 = 0 then d else d + 1, k⟩
  | true, false => some ⟨d, k⟩
  | false, true => some ⟨d + 1, k⟩
  | false, false => none

def shortest (x : Double) : Figure :=
  ((List.range 17).findSome? fun i => x.figureOf? (i + 1)).getD ⟨0, 0⟩

end Double

/-- How a number is laid out: outside the given positions of the point it is written with an
exponent. -/
structure Layout where
  /-- The positions of the point, counted from the first digit, that are written out. -/
  positional : Int → Bool
  /-- What stands before a positive exponent. -/
  positiveSign : String

namespace Layout

/-- Every digit is written out. -/
def plain : Layout := ⟨fun _ => true, ""⟩

/-- The point may be up to sixteen digits to the right or four zeros to the left. -/
def compact : Layout := ⟨fun p => decide (-5 < p ∧ p ≤ 16), "+"⟩

def zeros (n : Nat) : List Char := List.replicate n '0'

def stripZeros (ds : List Char) : List Char := (ds.reverse.dropWhile (· = '0')).reverse

def exponentText (l : Layout) (e : Int) : String :=
  if 0 ≤ e then "e" ++ l.positiveSign ++ toString e else "e" ++ toString e

/-- The text of a positive number, always with a point or an exponent. -/
def write (l : Layout) (f : Figure) : String :=
  let all := Nat.toDigits 10 f.digits
  let ds := stripZeros all
  let point : Int := f.exponent + all.length
  let count : Int := ds.length
  if l.positional point then
    if count ≤ point then String.ofList (ds ++ zeros (point - count).toNat) ++ ".0"
    else if 0 < point then
      String.ofList (ds.take point.toNat) ++ "." ++ String.ofList (ds.drop point.toNat)
    else "0." ++ String.ofList (zeros (-point).toNat ++ ds)
  else
    let tail := ds.drop 1
    String.ofList (ds.take 1) ++ (if tail.isEmpty then "" else "." ++ String.ofList tail) ++
      l.exponentText (point - 1)

def text (l : Layout) (negative : Bool) (x : Double) : String :=
  (if negative then "-" else "") ++ (if x.mantissa = 0 then "0.0" else l.write x.shortest)

end Layout
end Decimal
end FaultCodec
