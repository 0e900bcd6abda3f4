import FaultCodec.Text.Utf8
import Mathlib.Tactic.IntervalCases

/-!
# Reading encoded text back

The machine yields exactly the characters that were encoded, whatever bytes follow them, so both
readers invert the encoding. Encoded characters outside ASCII hold no ASCII byte.
-/

namespace FaultCodec
namespace Text
namespace Utf8

theorem parts_cons (s : State) (b : UInt8) (bs : List UInt8) :
    parts s (b :: bs) = (feed s b.toNat).1 ++ parts (feed s b.toNat).2 bs := by
  cases s <;> rfl

theorem parts_start {n : Nat} (bs : List UInt8) (hn : n < 256) :
    parts .start (UInt8.ofNat n :: bs) = (lead n).1 ++ parts (lead n).2 bs := by
  rw [parts_cons, UInt8.toNat_ofNat_of_lt' hn]
  rfl

/-- A continuation byte that is not the last one of its sequence. -/
theorem parts_within_next {value missing low high n : Nat} (bs : List UInt8) (hn : n < 256)
    (hlow : low ≤ n) (hhigh : n ≤ high) (hm : 1 < missing) :
    parts (.within value missing low high) (UInt8.ofNat n :: bs) =
      parts (.within (value * 64 + n % 64) (missing - 1) 0x80 0xBF) bs := by
  rw [parts_cons, UInt8.toNat_ofNat_of_lt' hn]
  simp [feed, hlow, hhigh, Nat.not_le.mpr hm]

theorem parts_within_last {value low high n : Nat} {c : Char} (bs : List UInt8) (hn : n < 256)
    (hlow : low ≤ n) (hhigh : n ≤ high) (hc : value * 64 + n % 64 = c.toNat) :
    parts (.within value 1 low high) (UInt8.ofNat n :: bs) = some c :: parts .start bs := by
  rw [parts_cons, UInt8.toNat_ofNat_of_lt' hn]
  simp [feed, hlow, hhigh, hc]

theorem lead_one {n : Nat} (h : n < 0x80) : lead n = ([some (Char.ofNat n)], .start) := by
  simp [lead, h]

theorem lead_two {n : Nat} (h : 2 ≤ n) (h' : n < 32) :
    lead (0xC0 + n) = ([], .within n 1 0x80 0xBF) := by
  simp [lead, show ¬0xC0 + n < 0x80 by omega, show ¬0xC0 + n < 0xC2 by omega,
    show 0xC0 + n < 0xE0 by omega]

/-- The second byte of three starts higher after the least first byte, which rules out overlong
forms, and ends lower where the surrogates would start. -/
theorem lead_three {n : Nat} (h : n < 16) :
    lead (0xE0 + n) = ([], .within n 2 (if n = 0 then 0xA0 else 0x80)
      (if n = 13 then 0x9F else 0xBF)) := by
  interval_cases n <;> rfl

/-- The second byte of four starts higher after the least first byte and ends lower after the
greatest. -/
theorem lead_four {n : Nat} (h : n < 5) :
    lead (0xF0 + n) = ([], .within n 3 (if n = 0 then 0x90 else 0x80)
      (if n = 4 then 0x8F else 0xBF)) := by
  interval_cases n <;> rfl

theorem toNat_bounds (c : Char) : c.toNat < 0xD800 ∨ 0xDFFF < c.toNat ∧ c.toNat < 0x110000 :=
  c.valid

theorem parts_encodeChar (c : Char) (bs : List UInt8) :
    parts .start (encodeChar c ++ bs) = some c :: parts .start bs := by
  have hc := toNat_bounds c
  unfold encodeChar
  dsimp only
  split_ifs with h₁ h₂ h₃
  · rw [List.singleton_append, parts_start _ (by omega), lead_one h₁]
    simp
  · rw [List.cons_append, List.singleton_append, parts_start _ (by omega),
      lead_two (by omega) (by omega)]
    exact parts_within_last _ (by omega) (by omega) (by omega) (by omega)
  · rw [List.cons_append, List.cons_append, List.singleton_append, parts_start _ (by omega),
      lead_three (by omega), List.nil_append,
      parts_within_next _ (by omega) (by split_ifs <;> omega) (by split_ifs <;> omega) (by omega)]
    exact parts_within_last _ (by omega) (by omega) (by omega) (by omega)
  · rw [List.cons_append, List.cons_append, List.cons_append, List.singleton_append,
      parts_start _ (by omega), lead_four (by omega), List.nil_append,
      parts_within_next _ (by omega) (by split_ifs <;> omega) (by split_ifs <;> omega) (by omega),
      parts_within_next _ (by omega) (by omega) (by omega) (by omega)]
    exact parts_within_last _ (by omega) (by omega) (by omega) (by omega)

theorem parts_encode (cs : List Char) : parts .start (encode cs) = cs.map some := by
  induction cs with
  | nil => rfl
  | cons c cs ih => rw [encode_cons, parts_encodeChar, ih, List.map_cons]

theorem collect_map_some (cs : List Char) : collect (cs.map some) = some cs := by
  induction cs with
  | nil => rfl
  | cons c cs ih => simp [collect, ih]

@[simp] theorem decode?_encode (cs : List Char) : decode? (encode cs) = some cs := by
  rw [decode?, parts_encode, collect_map_some]

@[simp] theorem text?_bytes (s : String) : text? (bytes s) = some s := by
  simp [text?, bytes]

@[simp] theorem bytes_ofList (cs : List Char) : bytes (String.ofList cs) = encode cs := by
  simp [bytes]

theorem le_ofNat {n : Nat} (h : 0x80 ≤ n) (hn : n < 256) : 0x80 ≤ UInt8.ofNat n := by
  rw [UInt8.le_iff_toNat_le, UInt8.toNat_ofNat_of_lt' hn]
  exact h

theorem le_of_mem_encodeChar {c : Char} (h : 0x80 ≤ c.toNat) {b : UInt8}
    (hb : b ∈ encodeChar c) : 0x80 ≤ b := by
  have hc := toNat_bounds c
  unfold encodeChar at hb
  dsimp only at hb
  split_ifs at hb
  · omega
  · simp only [List.mem_cons, List.not_mem_nil, or_false] at hb
    rcases hb with rfl | rfl <;> exact le_ofNat (by omega) (by omega)
  · simp only [List.mem_cons, List.not_mem_nil, or_false] at hb
    rcases hb with rfl | rfl | rfl <;> exact le_ofNat (by omega) (by omega)
  · simp only [List.mem_cons, List.not_mem_nil, or_false] at hb
    rcases hb with rfl | rfl | rfl | rfl <;> exact le_ofNat (by omega) (by omega)

end Utf8
end Text
end FaultCodec
