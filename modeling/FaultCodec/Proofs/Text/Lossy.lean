import FaultCodec.Proofs.Text.Utf8

/-!
# The lenient reader

Encoded text is read back as it was. From other bytes the lenient reader makes up no character but
U+FFFD; a null character in particular comes from a zero byte and from nothing else, which takes an
invariant of the machine: a begun sequence can only become characters of its own length.
-/

namespace FaultCodec
namespace Text
namespace Utf8

@[simp] theorem decodeLossy_encode (cs : List Char) : decodeLossy (encode cs) = cs := by
  simp [decodeLossy, parts_encode]

/-- All numbers from `least` to `most` are those of characters, and none of them is zero. -/
def Scalars (least most : Nat) : Prop :=
  0 < least ∧ (most < 0xD800 ∨ 0xDFFF < least ∧ most < 0x110000)

theorem Scalars.ofNat_ne_null {least most n : Nat} (h : Scalars least most) (hl : least ≤ n)
    (hm : n ≤ most) : Char.ofNat n ≠ '\x00' := by
  obtain ⟨hz, hs⟩ := h
  have hv : n.isValidChar := by
    rcases hs with hs | ⟨hs, ht⟩
    · exact Or.inl (by omega)
    · exact Or.inr ⟨by omega, by omega⟩
  intro hc
  have hn : (Char.ofNat n).toNat = n := by
    rw [Char.ofNat, dif_pos hv]
    rfl
  rw [hc] at hn
  have : n = 0 := hn.symm
  omega

/-- The states whose begun sequence, if it is completed, becomes a character other than null. The
constructors are named for the number of bytes that are missing. -/
inductive State.Sound : State → Prop
  | start : Sound .start
  | one {value low high : Nat} (hl : 0x80 ≤ low) (hh : high ≤ 0xBF)
      (h : Scalars (value * 64 + (low - 0x80)) (value * 64 + (high - 0x80))) :
      Sound (.within value 1 low high)
  | two {value low high : Nat} (hl : 0x80 ≤ low) (hh : high ≤ 0xBF)
      (h : Scalars ((value * 64 + (low - 0x80)) * 64) ((value * 64 + (high - 0x80)) * 64 + 63)) :
      Sound (.within value 2 low high)
  | three {value low high : Nat} (hl : 0x80 ≤ low) (hh : high ≤ 0xBF)
      (h : Scalars ((value * 64 + (low - 0x80)) * 4096)
        ((value * 64 + (high - 0x80)) * 4096 + 4095)) :
      Sound (.within value 3 low high)

theorem sound_lead {b : Nat} (hb : b < 256) : (lead b).2.Sound := by
  fun_cases lead b
  · exact .start
  · exact .start
  · exact .one (by omega) (by omega) (by unfold Scalars; omega)
  · exact .two (by omega) (by omega) (by unfold Scalars; omega)
  · exact .two (by omega) (by omega) (by unfold Scalars; omega)
  · exact .two (by omega) (by omega) (by unfold Scalars; omega)
  · exact .three (by omega) (by omega) (by unfold Scalars; omega)
  · exact .three (by omega) (by omega) (by unfold Scalars; omega)
  · exact .three (by omega) (by omega) (by unfold Scalars; omega)
  · exact .start

theorem null_not_mem_lead {b : Nat} (h : b ≠ 0) : some '\x00' ∉ (lead b).1 := by
  fun_cases lead b with
  | case1 hs =>
    have hn : Char.ofNat b ≠ '\x00' :=
      Scalars.ofNat_ne_null ⟨Nat.one_pos, Or.inl (Nat.lt_trans hs (by decide))⟩
        (Nat.pos_of_ne_zero h) le_rfl
    simpa using hn.symm
  | _ => simp

/-- A byte that fits takes a begun sequence on; any other one starts afresh. -/
theorem feed_within_of_not {value missing low high b : Nat} (h : ¬(low ≤ b ∧ b ≤ high)) :
    feed (.within value missing low high) b = (none :: (lead b).1, (lead b).2) := by
  simp only [feed, if_neg h]

theorem State.Sound.feed {s : State} (h : s.Sound) {b : Nat} (hb : b < 256) :
    (feed s b).2.Sound := by
  cases h with
  | start => exact sound_lead hb
  | @one value low high hl hh h =>
    by_cases hr : low ≤ b ∧ b ≤ high
    · simp only [Utf8.feed, if_pos hr]
      exact .start
    · rw [feed_within_of_not hr]
      exact sound_lead hb
  | @two value low high hl hh h =>
    by_cases hr : low ≤ b ∧ b ≤ high
    · simp only [Utf8.feed, if_pos hr]
      exact .one (by omega) (by omega) (by unfold Scalars at *; omega)
    · rw [feed_within_of_not hr]
      exact sound_lead hb
  | @three value low high hl hh h =>
    by_cases hr : low ≤ b ∧ b ≤ high
    · simp only [Utf8.feed, if_pos hr]
      exact .two (by omega) (by omega) (by unfold Scalars at *; omega)
    · rw [feed_within_of_not hr]
      exact sound_lead hb

theorem State.Sound.null_not_mem_feed {s : State} (h : s.Sound) {b : Nat} (hb : b ≠ 0) :
    some '\x00' ∉ (Utf8.feed s b).1 := by
  cases h with
  | start => exact null_not_mem_lead hb
  | @one value low high hl hh h =>
    by_cases hr : low ≤ b ∧ b ≤ high
    · have hn : Char.ofNat (value * 64 + b % 64) ≠ '\x00' :=
        h.ofNat_ne_null (by omega) (by omega)
      simpa [Utf8.feed, hr] using hn.symm
    · simpa [feed_within_of_not hr] using null_not_mem_lead hb
  | @two value low high hl hh h | @three value low high hl hh h =>
    by_cases hr : low ≤ b ∧ b ≤ high
    · simp [Utf8.feed, hr]
    · simpa [feed_within_of_not hr] using null_not_mem_lead hb

theorem null_not_mem_parts {s : State} (hs : s.Sound) {bs : List UInt8} (h : 0 ∉ bs) :
    some '\x00' ∉ parts s bs := by
  induction bs generalizing s with
  | nil => cases s <;> simp [parts]
  | cons b bs ih =>
    rw [List.mem_cons, not_or] at h
    have hb : b.toNat ≠ 0 := fun hb => h.1 (UInt8.toNat_inj.mp hb).symm
    rw [parts_cons, List.mem_append, not_or]
    exact ⟨hs.null_not_mem_feed hb, ih (hs.feed b.toNat_lt) h.2⟩

theorem null_not_mem_decodeLossy {bs : List UInt8} (h : 0 ∉ bs) : '\x00' ∉ decodeLossy bs := by
  intro hm
  obtain ⟨c?, hc, he⟩ := List.mem_map.mp hm
  cases c? with
  | none => exact absurd he (by decide)
  | some c =>
    cases (he : c = '\x00')
    exact null_not_mem_parts .start h hc

theorem zero_not_mem_encodeChar {c : Char} (h : c ≠ '\x00') : 0 ∉ encodeChar c := by
  intro hz
  by_cases hc : c.toNat < 0x80
  · have he : encodeChar c = [UInt8.ofNat c.toNat] := by simp [encodeChar, hc]
    rw [he, List.mem_singleton] at hz
    have hn : c.toNat = 0 := by
      rw [← UInt8.toNat_ofNat_of_lt' (show c.toNat < 256 by omega), ← hz]
      rfl
    apply h
    rw [← Char.ofNat_toNat c, hn]
  · have hb := le_of_mem_encodeChar (Nat.not_lt.mp hc) hz
    exact absurd hb (by decide)

theorem zero_not_mem_encode {cs : List Char} (h : '\x00' ∉ cs) : 0 ∉ encode cs := by
  intro hz
  obtain ⟨c, hc, hz⟩ := List.mem_flatMap.mp hz
  have hn : c ≠ '\x00' := by
    rintro rfl
    exact h hc
  exact zero_not_mem_encodeChar hn hz

end Utf8
end Text
end FaultCodec
