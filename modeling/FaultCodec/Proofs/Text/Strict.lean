import FaultCodec.Proofs.Text.Utf8

/-!
# The strict reader

The strict reader accepts encoded texts and nothing else, so a text has just one encoding. The
machine says what the bytes of a sequence must be: the first one fixes how many follow and where the
second one lies, and these bounds leave no overlong form and no surrogate.
-/

namespace FaultCodec
namespace Text
namespace Utf8

variable {value missing low high : Nat} {bs : List UInt8} {cs : List Char}

theorem toNat_ofNat_of_valid {n : Nat} (h : n < 0xD800 ∨ 0xDFFF < n ∧ n < 0x110000) :
    (Char.ofNat n).toNat = n := by
  rw [Char.ofNat, dif_pos h]
  rfl

theorem ofNat_eq_of_toNat_eq {n : Nat} {b : UInt8} (h : n = b.toNat) : UInt8.ofNat n = b := by
  rw [h, UInt8.ofNat_toNat]

/-! ## The bytes of one character -/

/-- The bytes that may stand behind the first one of a character. -/
def IsTail (b : UInt8) : Prop := 0x80 ≤ b.toNat ∧ b.toNat ≤ 0xBF

theorem encodeChar_one {a : UInt8} (ha : a.toNat < 0x80) :
    encodeChar (Char.ofNat a.toNat) = [a] := by
  have hn : (Char.ofNat a.toNat).toNat = a.toNat := toNat_ofNat_of_valid (by omega)
  unfold encodeChar
  simp only [hn, if_pos ha, UInt8.ofNat_toNat]

theorem encodeChar_two {a b : UInt8} (ha : 0xC2 ≤ a.toNat) (ha' : a.toNat < 0xE0) (hb : IsTail b) :
    encodeChar (Char.ofNat ((a.toNat - 0xC0) * 64 + b.toNat % 64)) = [a, b] := by
  obtain ⟨hl, hh⟩ := hb
  unfold encodeChar
  rw [toNat_ofNat_of_valid (by omega)]
  dsimp only
  rw [if_neg (by omega), if_pos (by omega), ofNat_eq_of_toNat_eq (b := a) (by omega),
    ofNat_eq_of_toNat_eq (b := b) (by omega)]

/-- The number of a sequence of three bytes, without the marks of its bytes. -/
def three (v : Nat) (b c : UInt8) : Nat := (v * 64 + b.toNat % 64) * 64 + c.toNat % 64

theorem encodeChar_three {v : Nat} {a b c : UInt8} (ha : a.toNat = 0xE0 + v) (hv : v < 16)
    (hb : IsTail b) (hlow : v = 0 → 0xA0 ≤ b.toNat) (hhigh : v = 13 → b.toNat ≤ 0x9F)
    (hc : IsTail c) : encodeChar (Char.ofNat (three v b c)) = [a, b, c] := by
  obtain ⟨hbl, hbh⟩ := hb
  obtain ⟨hcl, hch⟩ := hc
  unfold encodeChar three
  rw [toNat_ofNat_of_valid (by omega)]
  dsimp only
  rw [if_neg (by omega), if_neg (by omega), if_pos (by omega),
    ofNat_eq_of_toNat_eq (b := a) (by omega), ofNat_eq_of_toNat_eq (b := b) (by omega),
    ofNat_eq_of_toNat_eq (b := c) (by omega)]

/-- The number of a sequence of four bytes, without the marks of its bytes. -/
def four (v : Nat) (b c d : UInt8) : Nat := three v b c * 64 + d.toNat % 64

theorem encodeChar_four {v : Nat} {a b c d : UInt8} (ha : a.toNat = 0xF0 + v) (hv : v < 5)
    (hb : IsTail b) (hlow : v = 0 → 0x90 ≤ b.toNat) (hhigh : v = 4 → b.toNat ≤ 0x8F)
    (hc : IsTail c) (hd : IsTail d) :
    encodeChar (Char.ofNat (four v b c d)) = [a, b, c, d] := by
  obtain ⟨hbl, hbh⟩ := hb
  obtain ⟨hcl, hch⟩ := hc
  obtain ⟨hdl, hdh⟩ := hd
  unfold encodeChar four three
  rw [toNat_ofNat_of_valid (by omega)]
  dsimp only
  rw [if_neg (by omega), if_neg (by omega), if_neg (by omega),
    ofNat_eq_of_toNat_eq (b := a) (by omega), ofNat_eq_of_toNat_eq (b := b) (by omega),
    ofNat_eq_of_toNat_eq (b := c) (by omega), ofNat_eq_of_toNat_eq (b := d) (by omega)]

/-- The bytes of a character show where it starts. -/
theorem encodeChar_eq_cons (c : Char) :
    ∃ a tail, encodeChar c = a :: tail ∧ ¬IsTail a ∧ ∀ b ∈ tail, IsTail b := by
  have hc := toNat_bounds c
  have htail : ∀ n, IsTail (UInt8.ofNat (0x80 + n % 64)) := by
    intro n
    rw [IsTail, UInt8.toNat_ofNat_of_lt' (show 0x80 + n % 64 < 256 by omega)]
    omega
  have hlead : ∀ n < 256, n < 0x80 ∨ 0xC0 ≤ n → ¬IsTail (UInt8.ofNat n) := by
    intro n hn h
    rw [IsTail, UInt8.toNat_ofNat_of_lt' hn]
    omega
  have hone : ∀ n, ∀ b ∈ [UInt8.ofNat (0x80 + n % 64)], IsTail b :=
    fun n => List.forall_mem_singleton.mpr (htail n)
  have htwo : ∀ m n, ∀ b ∈ [UInt8.ofNat (0x80 + m % 64), UInt8.ofNat (0x80 + n % 64)], IsTail b :=
    fun m n => List.forall_mem_cons.mpr ⟨htail m, hone n⟩
  unfold encodeChar
  dsimp only
  split_ifs
  · exact ⟨_, _, rfl, hlead _ (by omega) (by omega), List.forall_mem_nil _⟩
  · exact ⟨_, _, rfl, hlead _ (by omega) (by omega), hone _⟩
  · exact ⟨_, _, rfl, hlead _ (by omega) (by omega), htwo _ _⟩
  · exact ⟨_, _, rfl, hlead _ (by omega) (by omega), List.forall_mem_cons.mpr ⟨htail _, htwo _ _⟩⟩

/-- Bytes that start with a character start with no other one. -/
theorem encodeChar_append_inj {c d : Char} {bs bs' : List UInt8}
    (h : encodeChar c ++ bs = encodeChar d ++ bs') : c = d ∧ bs = bs' := by
  have hp := congrArg (parts .start) h
  rw [parts_encodeChar, parts_encodeChar] at hp
  cases (List.cons.inj hp).1
  exact ⟨rfl, List.append_cancel_left h⟩

/-! ## What the machine takes -/

/-- The bytes are taken without a gap, and the machine yields the characters. -/
def Yields (state : State) (bs : List UInt8) (cs : List Char) : Prop :=
  collect (parts state bs) = some cs

/-- The last byte of a sequence lies within the bounds and completes a character. -/
theorem Yields.last (h : Yields (.within value 1 low high) bs cs) :
    ∃ b more cs', bs = b :: more ∧ low ≤ b.toNat ∧ b.toNat ≤ high ∧
      cs = Char.ofNat (value * 64 + b.toNat % 64) :: cs' ∧ Yields .start more cs' := by
  cases bs with
  | nil => cases h
  | cons b more =>
    rw [Yields, parts_cons, feed] at h
    split at h
    · next hb =>
      obtain ⟨cs', hm, hcs⟩ := Option.map_eq_some_iff.mp h
      exact ⟨b, more, cs', rfl, hb.1, hb.2, hcs.symm, hm⟩
    · cases h

/-- An earlier byte lies within the bounds and joins what has been read. -/
theorem Yields.next (hm : 1 < missing) (h : Yields (.within value missing low high) bs cs) :
    ∃ b more, bs = b :: more ∧ low ≤ b.toNat ∧ b.toNat ≤ high ∧
      Yields (.within (value * 64 + b.toNat % 64) (missing - 1) 0x80 0xBF) more cs := by
  cases bs with
  | nil => cases h
  | cons b more =>
    rw [Yields, parts_cons, feed] at h
    split at h
    · next hb =>
      rw [if_neg (Nat.not_le.mpr hm)] at h
      exact ⟨b, more, rfl, hb.1, hb.2, h⟩
    · cases h

/-- The bytes start with those of a character, which the machine yields first. -/
def StartsWithChar (bs : List UInt8) (cs : List Char) : Prop :=
  ∃ c more cs', bs = encodeChar c ++ more ∧ cs = c :: cs' ∧ Yields .start more cs'

theorem startsWithChar_two {a : UInt8} (ha : 0xC2 ≤ a.toNat) (ha' : a.toNat < 0xE0)
    (h : Yields (.within (a.toNat - 0xC0) 1 0x80 0xBF) bs cs) : StartsWithChar (a :: bs) cs := by
  obtain ⟨b, more, cs', rfl, hl, hh, rfl, hm⟩ := h.last
  refine ⟨_, more, cs', ?_, rfl, hm⟩
  rw [encodeChar_two ha ha' ⟨hl, hh⟩]
  rfl

theorem startsWithChar_three {a : UInt8} (ha : a.toNat = 0xE0 + value) (hv : value < 16)
    (hl : 0x80 ≤ low) (hh : high ≤ 0xBF) (hlow : value = 0 → 0xA0 ≤ low)
    (hhigh : value = 13 → high ≤ 0x9F) (h : Yields (.within value 2 low high) bs cs) :
    StartsWithChar (a :: bs) cs := by
  obtain ⟨b, more, rfl, hbl, hbh, h⟩ := h.next (by decide)
  obtain ⟨c, more, cs', rfl, hcl, hch, rfl, hm⟩ := h.last
  refine ⟨Char.ofNat (three value b c), more, cs', ?_, rfl, hm⟩
  rw [encodeChar_three ha hv ⟨hl.trans hbl, hbh.trans hh⟩ (fun hz => (hlow hz).trans hbl)
    (fun hz => hbh.trans (hhigh hz)) ⟨hcl, hch⟩]
  rfl

theorem startsWithChar_four {a : UInt8} (ha : a.toNat = 0xF0 + value) (hv : value < 5)
    (hl : 0x80 ≤ low) (hh : high ≤ 0xBF) (hlow : value = 0 → 0x90 ≤ low)
    (hhigh : value = 4 → high ≤ 0x8F) (h : Yields (.within value 3 low high) bs cs) :
    StartsWithChar (a :: bs) cs := by
  obtain ⟨b, more, rfl, hbl, hbh, h⟩ := h.next (by decide)
  obtain ⟨c, more, rfl, hcl, hch, h⟩ := h.next (by decide)
  obtain ⟨d, more, cs', rfl, hdl, hdh, rfl, hm⟩ := h.last
  refine ⟨Char.ofNat (four value b c d), more, cs', ?_, rfl, hm⟩
  rw [encodeChar_four ha hv ⟨hl.trans hbl, hbh.trans hh⟩ (fun hz => (hlow hz).trans hbl)
    (fun hz => hbh.trans (hhigh hz)) ⟨hcl, hch⟩ ⟨hdl, hdh⟩]
  rfl

theorem Yields.startsWithChar {a : UInt8} (h : Yields .start (a :: bs) cs) :
    StartsWithChar (a :: bs) cs := by
  have h : collect ((lead a.toNat).1 ++ parts (lead a.toNat).2 bs) = some cs := h
  revert h
  fun_cases lead a.toNat with
  | case1 ha =>
    intro h
    obtain ⟨cs', hm, rfl⟩ := Option.map_eq_some_iff.mp h
    refine ⟨_, bs, cs', ?_, rfl, hm⟩
    rw [encodeChar_one ha]
    rfl
  | case2 ha ha' => exact fun h => absurd h nofun
  | case3 ha ha' ha'' => exact startsWithChar_two (by omega) ha''
  | case4 => apply startsWithChar_three <;> omega
  | case5 => apply startsWithChar_three <;> omega
  | case6 => apply startsWithChar_three <;> omega
  | case7 => apply startsWithChar_four <;> omega
  | case8 => apply startsWithChar_four <;> omega
  | case9 => apply startsWithChar_four <;> omega
  | case10 => exact fun h => absurd h nofun

theorem Yields.eq_encode (h : Yields .start bs cs) : bs = encode cs := by
  induction cs generalizing bs with
  | nil =>
    cases bs with
    | nil => rfl
    | cons a bs =>
      obtain ⟨c, more, cs', _, hcs, _⟩ := h.startsWithChar
      cases hcs
  | cons c cs ih =>
    cases bs with
    | nil => cases h
    | cons a bs =>
      obtain ⟨c', more, cs', hbs, hcs, hm⟩ := h.startsWithChar
      cases hcs
      rw [hbs, encode_cons, ih hm]

theorem decode?_eq_some_iff : decode? bs = some cs ↔ bs = encode cs := by
  constructor
  · exact Yields.eq_encode
  · rintro rfl
    exact decode?_encode cs

theorem text?_eq_some_iff {s : String} : text? bs = some s ↔ bs = bytes s := by
  rw [text?, Option.map_eq_some_iff]
  constructor
  · rintro ⟨cs, hcs, rfl⟩
    rw [decode?_eq_some_iff.mp hcs, bytes_ofList]
  · rintro rfl
    exact ⟨s.toList, decode?_encode s.toList, String.ofList_toList⟩

end Utf8
end Text
end FaultCodec
