import FaultCodec.Proofs.Json.Decides

/-!
# Whole numbers

A number is read as a whole one just if it has no sign, no fraction and no exponent, and its value
fits into 64 bits; a longer one is taken for a double. The digits of a natural number are such a
numeral, and count it.
-/

namespace FaultCodec
namespace Json

open Text

namespace Number

variable {below : Bool} {n k : Nat} {e : Int} {down : Bool} {s : List UInt8}

/-- The reader did not give a whole number. -/
def NotNatural (r : Except Error (Number × List UInt8)) : Prop :=
  ∀ n rest, r ≠ .ok (.natural n, rest)

theorem notNatural_readScaled : NotNatural (readScaled below n e s) := by
  intro m rest h
  rw [readScaled] at h
  split at h <;> cases h

theorem notNatural_readExponentDigits : NotNatural (readExponentDigits below n e down k s) := by
  fun_induction readExponentDigits below n e down k s with
  | case1 => exact notNatural_readScaled
  | case2 _ _ _ _ _ ih => exact ih
  | case3 => nofun
  | case4 => nofun
  | case5 => exact notNatural_readScaled

theorem notNatural_readExponent : NotNatural (readExponent below n e s) := by
  unfold readExponent
  split
  split
  · nofun
  · split_ifs
    · exact notNatural_readExponentDigits
    · nofun

theorem notNatural_readEnd : NotNatural (readEnd below n e s) := by
  unfold readEnd
  split
  · exact notNatural_readExponent
  · exact notNatural_readExponent
  · exact notNatural_readScaled

theorem notNatural_readFraction : NotNatural (readFraction below n e s) := by
  unfold readFraction
  dsimp only
  split_ifs
  · exact notNatural_readEnd
  · split <;> nofun
  · exact notNatural_readEnd

theorem notNatural_readLong : NotNatural (readLong below n s) := by
  unfold readLong
  dsimp only
  split
  · exact notNatural_readFraction
  · exact notNatural_readEnd

theorem notNatural_readTail : NotNatural (readTail true n s) := by
  unfold readTail
  split
  · exact notNatural_readFraction
  · exact notNatural_readExponent
  · exact notNatural_readExponent
  · rw [if_neg nofun]
    split_ifs
    · nofun
    · split <;> nofun

theorem notNatural_readDigits : NotNatural (readDigits true s) := by
  unfold readDigits
  split
  · nofun
  · split_ifs
    · nofun
    · exact notNatural_readTail
  · split_ifs
    · dsimp only
      split_ifs
      · exact notNatural_readLong
      · exact notNatural_readTail
    · nofun

/-- The value of some digits behind a number that has been read already. -/
def value (n : Nat) (ds : List UInt8) : Nat := ds.foldl (fun n b => n * 10 + Byte.digit b) n

@[simp] theorem value_nil (n : Nat) : value n [] = n := rfl

@[simp] theorem value_cons (n : Nat) (b : UInt8) (ds : List UInt8) :
    value n (b :: ds) = value (n * 10 + Byte.digit b) ds := by
  simp only [value, List.foldl_cons]

theorem value_append (n : Nat) (ds es : List UInt8) : value n (ds ++ es) = value (value n ds) es :=
  List.foldl_append

theorem le_value (n : Nat) (ds : List UInt8) : n ≤ value n ds := by
  induction ds generalizing n with
  | nil => exact le_rfl
  | cons b ds ih =>
    have h := ih (n * 10 + Byte.digit b)
    rw [value_cons]
    omega

section Absorb

variable {ds rest : List UInt8}

theorem absorb_of_startsWithDigit_eq_false (hr : startsWithDigit rest = false) (n taken : Nat) :
    absorb n taken rest = (n, taken, rest) := by
  cases rest with
  | nil => rfl
  | cons b rest =>
    have hb : Byte.isDigit b = false := hr
    simp [absorb, hb]

theorem absorb_of_value_lt (h : ∀ b ∈ ds, Byte.isDigit b = true) (hr : startsWithDigit rest = false)
    {n : Nat} (hv : value n ds < UInt64.size) (taken : Nat) :
    absorb n taken (ds ++ rest) = (value n ds, taken + ds.length, rest) := by
  induction ds generalizing n taken with
  | nil => exact absorb_of_startsWithDigit_eq_false hr n taken
  | cons b ds ih =>
    have hb := h b List.mem_cons_self
    have hds := fun c hc => h c (List.mem_cons_of_mem b hc)
    rw [value_cons] at hv ⊢
    have hle := le_value (n * 10 + Byte.digit b) ds
    rw [List.cons_append, absorb, if_pos ⟨hb, Nat.lt_of_le_of_lt hle hv⟩, ih hds hv,
      List.length_cons, Nat.add_assoc, Nat.add_comm 1]

/-- Of other digits some are left. -/
theorem startsWithDigit_absorb (h : ∀ b ∈ ds, Byte.isDigit b = true) {n : Nat}
    (hn : n < UInt64.size) (hv : UInt64.size ≤ value n ds) (taken : Nat) :
    startsWithDigit (absorb n taken (ds ++ rest)).2.2 = true := by
  induction ds generalizing n taken with
  | nil => exact absurd hv (Nat.not_le.mpr hn)
  | cons b ds ih =>
    have hb := h b List.mem_cons_self
    have hds := fun c hc => h c (List.mem_cons_of_mem b hc)
    rw [List.cons_append, absorb]
    split_ifs with ht
    · exact ih hds ht.2 hv (taken + 1)
    · exact hb

end Absorb

section Whole

variable {rest fraction exponent whole : List UInt8}

theorem value_zero_cons (b : UInt8) (ds : List UInt8) :
    value 0 (b :: ds) = value (Byte.digit b) ds := by
  rw [value_cons, Nat.zero_mul, Nat.zero_add]

theorem readDigits_zero (below : Bool) (s : List UInt8) : readDigits below (Byte.zero :: s) =
    if startsWithDigit s then failOn .invalidNumber s else readTail below 0 s := rfl

theorem readDigits_of_value_lt (hw : IsWhole whole) (hr : startsWithDigit rest = false)
    (hv : value 0 whole < UInt64.size) :
    readDigits false (whole ++ rest) = readTail false (value 0 whole) rest := by
  cases hw with
  | zero =>
    rw [List.singleton_append, readDigits_zero, if_neg (by simp [hr])]
    rfl
  | digits hz hds =>
    cases hds with
    | digits hb hmore =>
      rw [value_zero_cons] at hv ⊢
      rw [List.cons_append, readDigits, if_pos hb, absorb_of_value_lt hmore hr hv]
      · dsimp only
        rw [if_neg (by simp [hr])]
      · exact hz

/-- A longer one is taken for a double. -/
theorem notNatural_of_le_value (hw : IsWhole whole) (hv : UInt64.size ≤ value 0 whole) :
    NotNatural (readDigits false (whole ++ rest)) := by
  cases hw with
  | zero => exact absurd hv (by decide)
  | @digits b more hz hds =>
    cases hds with
    | digits hb hmore =>
      have hd : Byte.digit b < UInt64.size :=
        Nat.lt_of_le_of_lt (Nat.sub_le _ _) (Nat.lt_trans b.toNat_lt (by decide))
      rw [value_zero_cons] at hv
      rw [List.cons_append, readDigits, if_pos hb]
      · dsimp only
        rw [if_pos (startsWithDigit_absorb hmore hd hv 0)]
        exact notNatural_readLong
      · exact hz

theorem readTail_of_stops (h : Stops rest) (n : Nat) :
    readTail false n rest = .ok (.natural n, rest) := by
  cases rest with
  | nil => rfl
  | cons b rest =>
    have hb := stops_cons.mp h
    rw [readTail, if_pos rfl]
    all_goals
      rintro more he
      cases he
      exact absurd hb (by decide)

/-- Nothing but the end may follow the digits of a whole number. -/
theorem readTail_eq_natural_iff (hf : IsFraction fraction) (hx : IsExponent exponent)
    (hr : Stops rest) (n k : Nat) (more : List UInt8) :
    readTail false n (fraction ++ (exponent ++ rest)) = .ok (.natural k, more) ↔
      fraction = [] ∧ exponent = [] ∧ n = k ∧ more = rest := by
  cases hf with
  | none =>
    cases hx with
    | none =>
      rw [List.nil_append, List.nil_append, readTail_of_stops hr]
      simp [eq_comm]
    | some he =>
      rcases he with rfl | rfl
      · exact iff_of_false (notNatural_readExponent k more) (by simp)
      · exact iff_of_false (notNatural_readExponent k more) (by simp)
  | some hds => exact iff_of_false (notNatural_readFraction k more) (by simp)

end Whole

theorem read_of_isWhole {whole : List UInt8} (hw : IsWhole whole) (s : List UInt8) :
    read (whole ++ s) = readDigits false (whole ++ s) := by
  obtain ⟨b, more, rfl, hb⟩ := hw.exists_cons
  rw [List.cons_append, read]
  rintro tail he
  cases he
  exact absurd hb (by decide)

end Number

namespace Numeral

/-- The numeral is a whole number that fits into 64 bits. -/
structure Counts (m : Numeral) (n : Nat) : Prop where
  positive : m.negative = false
  fraction : m.fraction = []
  exponent : m.exponent = []
  value : Number.value 0 m.whole = n
  lt : n < UInt64.size

theorem read_eq_natural_iff (m : Numeral) {rest : List UInt8} (hr : Stops rest) (n : Nat)
    (more : List UInt8) :
    Number.read (m.text ++ rest) = .ok (.natural n, more) ↔ more = rest ∧ m.Counts n := by
  obtain ⟨negative, whole, fraction, exponent, hw, hf, hx⟩ := m
  cases negative with
  | true =>
    refine iff_of_false (Number.notNatural_readDigits n more) ?_
    rintro ⟨_, h⟩
    cases h.positive
  | false =>
    have hd := Number.startsWithDigit_isFraction hf hx hr
    have ht : text ⟨false, whole, fraction, exponent, hw, hf, hx⟩ ++ rest =
        whole ++ (fraction ++ (exponent ++ rest)) := by
      simp [text]
    rw [ht, Number.read_of_isWhole hw]
    by_cases hv : Number.value 0 whole < UInt64.size
    · rw [Number.readDigits_of_value_lt hw hd hv, Number.readTail_eq_natural_iff hf hx hr]
      constructor
      · rintro ⟨hf, hx, rfl, rfl⟩
        exact ⟨rfl, rfl, hf, hx, rfl, hv⟩
      · rintro ⟨rfl, h⟩
        exact ⟨h.fraction, h.exponent, h.value, rfl⟩
    · refine iff_of_false (Number.notNatural_of_le_value hw (Nat.not_lt.mp hv) n more) ?_
      rintro ⟨_, h⟩
      exact hv (h.value ▸ h.lt)

end Numeral

theorem Document.eq_number_of_startsWith {v : Document} {b : UInt8} (h : v.startsWith b = true)
    (hb : b = Byte.minus ∨ Byte.isDigit b = true) : ∃ m, v = .number m := by
  fun_cases startsWith v b with
  | case4 m => exact ⟨m, rfl⟩
  | _ =>
    cases eq_of_beq h
    exact absurd hb (by decide)

/-- Whole numbers of 64 bits are read off just the numerals that count them. -/
theorem decides_readUnsigned (expected : String) : Decides (readUnsigned expected) fun v n =>
    ∃ m : Numeral, v = .number m ∧ m.Counts n.toNat := by
  intro v text before rest h hb hr n more
  rw [readUnsigned, hb.skipSpace_append, h.skipSpace_append]
  obtain ⟨b, tail, ht, hs⟩ := h.exists_cons
  by_cases hn : b = Byte.minus ∨ Byte.isDigit b = true
  · obtain ⟨m, rfl⟩ := Document.eq_number_of_startsWith hs hn
    cases h with
    | number m =>
      have hm := m.read_eq_natural_iff hr
      rw [ht, List.cons_append] at hm ⊢
      dsimp only
      rw [if_pos hn]
      constructor
      · intro he
        obtain ⟨⟨x, s⟩, hx, he⟩ := bind_eq_ok.mp he
        cases x with
        | natural k =>
          cases he
          obtain ⟨rfl, hc⟩ := (hm k _).mp hx
          exact ⟨rfl, m, rfl, by rwa [UInt64.toNat_ofNat_of_lt' hc.lt]⟩
        | negative k => cases he
        | float below x => cases he
      · rintro ⟨rfl, _, hv, hc⟩
        cases hv
        refine bind_eq_ok.mpr ⟨_, (hm _ _).mpr ⟨rfl, hc⟩, ?_⟩
        dsimp only
        rw [UInt64.ofNat_toNat]
  · rw [ht, List.cons_append]
    dsimp only
    rw [if_neg hn]
    refine iff_of_false (refuse_ne_ok _ _ _) ?_
    rintro ⟨_, m, rfl, _⟩
    exact hn (by simpa [Document.startsWith] using hs)

/-! ## The numerals of numbers -/

theorem encodeChar_digitChar : ∀ d < 10, ∃ b, Utf8.encodeChar (Nat.digitChar d) = [b] ∧
    Byte.isDigit b = true ∧ Byte.digit b = d := by
  have h : ∀ d < 10, (Utf8.encodeChar (Nat.digitChar d)).map
      (fun b => (Byte.isDigit b, Byte.digit b)) = [(true, d)] := by
    decide
  intro d hd
  obtain ⟨b, he, hb⟩ := List.map_eq_singleton_iff.mp (h d hd)
  exact ⟨b, he, Prod.mk.inj hb⟩

theorem IsWhole.concat {ds : List UInt8} {b : UInt8} (h : IsWhole ds) (hv : Number.value 0 ds ≠ 0)
    (hb : Byte.isDigit b = true) : IsWhole (ds ++ [b]) := by
  cases h with
  | zero => exact absurd rfl hv
  | digits hz h =>
    cases h with
    | digits hc hmore =>
      refine .digits hz (.digits hc ?_)
      simpa [or_imp, forall_and, hb] using hmore

/-- By induction on the number: its last digit stands behind those of a tenth. -/
theorem isWhole_toDigits (n : Nat) : IsWhole (Utf8.encode (Nat.toDigits 10 n)) ∧
    Number.value 0 (Utf8.encode (Nat.toDigits 10 n)) = n := by
  induction n using Nat.strongRecOn with
  | ind n ih =>
    obtain ⟨b, he, hb, hd⟩ := encodeChar_digitChar (n % 10) (Nat.mod_lt n (by decide))
    rw [Nat.toDigits_eq_if (by decide)]
    split_ifs with hn
    · rw [Nat.mod_eq_of_lt hn] at he hd
      rw [Utf8.encode_cons, Utf8.encode_nil, he, List.append_nil]
      refine ⟨?_, by simp [hd]⟩
      by_cases hz : b = Byte.zero
      · exact hz ▸ .zero
      · exact .digits hz (.digits hb nofun)
    · obtain ⟨hw, hv⟩ := ih (n / 10) (by omega)
      rw [Utf8.encode_append, Utf8.encode_cons, Utf8.encode_nil, he, List.append_nil]
      refine ⟨hw.concat (by rw [hv]; omega) hb, ?_⟩
      rw [Number.value_append, hv, Number.value_cons, Number.value_nil, hd]
      omega

theorem isWhole_repr (n : Nat) : IsWhole (Utf8.bytes (Nat.repr n)) := by
  rw [Nat.repr_eq_ofList_toDigits, Utf8.bytes_ofList]
  exact (isWhole_toDigits n).1

theorem value_repr (n : Nat) : Number.value 0 (Utf8.bytes (Nat.repr n)) = n := by
  rw [Nat.repr_eq_ofList_toDigits, Utf8.bytes_ofList]
  exact (isWhole_toDigits n).2

namespace Numeral

/-- A number as it is written without a sign. -/
def ofNat (n : Nat) : Numeral where
  negative := false
  whole := Utf8.bytes (Nat.repr n)
  fraction := []
  exponent := []
  isWhole := isWhole_repr n
  isFraction := .none
  isExponent := .none

theorem text_ofNat (n : Nat) : (ofNat n).text = Utf8.bytes (Nat.repr n) := by
  simp [text, ofNat]

theorem counts_ofNat {n : Nat} (h : n < UInt64.size) : (ofNat n).Counts n :=
  ⟨rfl, rfl, rfl, value_repr n, h⟩

end Numeral
end Json
end FaultCodec
