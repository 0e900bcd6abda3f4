import FaultCodec.Proofs.Json.Spelling
import FaultCodec.Proofs.Text.Strict

/-!
# Strings are read from their spellings only

What is read as a string, up to its closing quote, is a spelling of that string. The machine adds
whole characters for escapes and single bytes for everything else. An escape never starts with the
inner byte of a character, so a character that is not escaped stands there in one piece.
-/

namespace FaultCodec
namespace Json

open Text

/-! ## Escapes -/

/-- The bytes are an escape of a character, and the machine goes on behind it. -/
def Escapes (bs : List UInt8) (x : List UInt8) : Prop :=
  ∃ c esc rest y, bs = esc ++ rest ∧ SpellsChar c esc ∧ x = Utf8.encodeChar c ++ y ∧
    StringState.plain.feed rest = some (y, .plain)

namespace StringState

theorem mem_shortEscapes {b a : UInt8} (h : shortEscape? b = some a) :
    ∃ c, (b, c) ∈ shortEscapes ∧ Utf8.encodeChar c = [a] := by
  unfold shortEscape? at h
  split at h
  · cases h
    exact ⟨'"', by decide, rfl⟩
  · cases h
    exact ⟨'\\', by decide, rfl⟩
  · cases h
    exact ⟨'/', by decide, rfl⟩
  · cases h
    exact ⟨'\x08', by decide, rfl⟩
  · cases h
    exact ⟨'\x0c', by decide, rfl⟩
  · cases h
    exact ⟨'\n', by decide, rfl⟩
  · cases h
    exact ⟨'\r', by decide, rfl⟩
  · cases h
    exact ⟨'\t', by decide, rfl⟩
  · cases h

theorem feed_cons_eq_some {state last : StringState} {b : UInt8} {bs x : List UInt8}
    (h : state.feed (b :: bs) = some (x, last)) :
    ∃ added next more, state.step b = .ok (added, next) ∧ next.feed bs = some (more, last) ∧
      x = added ++ more := by
  rw [feed] at h
  split_ifs at h with hq
  split at h
  · cases h
  · next added next hs =>
    obtain ⟨⟨more, last'⟩, hm, he⟩ := Option.map_eq_some_iff.mp h
    cases he
    exact ⟨added, next, more, hs, hm, rfl⟩

/-- The value of an escape by number, digit by digit. -/
def joinDigit (value : Option Nat) (b : UInt8) : Option Nat :=
  value.bind fun v => (Byte.hexDigit? b).map (v * 16 + ·)

theorem joinDigit_eq_some {value : Option Nat} {b : UInt8} {v : Nat}
    (h : joinDigit value b = some v) :
    ∃ u i, value = some u ∧ Byte.hexDigit? b = some i ∧ v = u * 16 + i := by
  obtain ⟨u, hu, hm⟩ := Option.bind_eq_some_iff.mp h
  obtain ⟨i, hi, rfl⟩ := Option.map_eq_some_iff.mp hm
  exact ⟨u, i, hu, hi, rfl⟩

theorem step_hex_three {high value : Option Nat} {d : UInt8} {added : List UInt8}
    {next : StringState} (h : (hex high 3 value).step d = .ok (added, next)) :
    ∃ v, joinDigit value d = some v ∧ finishHex high v = .ok (added, next) := by
  simp only [step, Nat.lt_irrefl, if_false] at h
  split at h
  · cases h
  · next v hv => exact ⟨v, hv, h⟩

theorem spellsUnit_of_value {a b c d : UInt8} {v : Nat}
    (h : joinDigit (joinDigit (joinDigit (joinDigit (some 0) a) b) c) d = some v) :
    SpellsUnit v [a, b, c, d] := by
  obtain ⟨_, l, h₃, hd, rfl⟩ := joinDigit_eq_some h
  obtain ⟨_, k, h₂, hc, rfl⟩ := joinDigit_eq_some h₃
  obtain ⟨_, j, h₁, hb, rfl⟩ := joinDigit_eq_some h₂
  obtain ⟨_, i, h₀, ha, rfl⟩ := joinDigit_eq_some h₁
  cases h₀
  rw [Nat.zero_mul, Nat.zero_add]
  exact .digits ha hb hc hd

theorem feed_hex_eq_some {high : Option Nat} {bs x : List UInt8}
    (h : (hex high 0 (some 0)).feed bs = some (x, .plain)) :
    ∃ v digits rest added next more, bs = digits ++ rest ∧ SpellsUnit v digits ∧
      finishHex high v = .ok (added, next) ∧ next.feed rest = some (more, .plain) ∧
      x = added ++ more := by
  rcases bs with _ | ⟨a, _ | ⟨b, _ | ⟨c, _ | ⟨d, rest⟩⟩⟩⟩
  · cases h
  · cases h
  · cases h
  · cases h
  · obtain ⟨_, _, x₁, ha, h₁, rfl⟩ := feed_cons_eq_some h
    cases ha
    obtain ⟨_, _, x₂, hb, h₂, rfl⟩ := feed_cons_eq_some h₁
    cases hb
    obtain ⟨_, _, x₃, hc, h₃, rfl⟩ := feed_cons_eq_some h₂
    cases hc
    obtain ⟨added, next, more, hd, h₄, rfl⟩ := feed_cons_eq_some h₃
    obtain ⟨v, hv, hf⟩ := step_hex_three hd
    exact ⟨v, [a, b, c, d], rest, added, next, more, rfl, spellsUnit_of_value hv, hf, h₄, rfl⟩

/-- One unit that is no surrogate is a character by itself; the first one of a pair goes on to the
second one. -/
theorem finishHex_none_eq_ok {v : Nat} {added : List UInt8} {next : StringState}
    (h : finishHex none v = .ok (added, next)) :
    (added = [] ∧ next = half v ∧ 0xD800 ≤ v ∧ v ≤ 0xDBFF) ∨
      (added = Utf8.encodeChar (Char.ofNat v) ∧ next = plain ∧ (v < 0xD800 ∨ 0xDFFF < v)) := by
  unfold finishHex at h
  dsimp only at h
  split_ifs at h with hlow hhigh
  · cases h
    exact Or.inl ⟨rfl, rfl, hhigh⟩
  · cases h
    exact Or.inr ⟨rfl, rfl, by omega⟩

/-- The character of a pair of surrogates. -/
def paired (u v : Nat) : Char := Char.ofNat ((u - 0xD800) * 0x400 + (v - 0xDC00) + 0x10000)

theorem finishHex_some_eq_ok {u v : Nat} {added : List UInt8} {next : StringState}
    (h : finishHex (some u) v = .ok (added, next)) :
    added = Utf8.encodeChar (paired u v) ∧ next = plain ∧ 0xDC00 ≤ v ∧ v ≤ 0xDFFF := by
  unfold finishHex at h
  dsimp only at h
  split_ifs at h with hv
  simp only [Except.ok.injEq, Prod.mk.injEq] at h
  exact ⟨h.1.symm, h.2.symm, hv⟩

/-- The second unit of a pair follows the first one with a backslash of its own. -/
theorem feed_half_eq_some {u : Nat} {bs x : List UInt8}
    (h : (half u).feed bs = some (x, .plain)) :
    ∃ v digits rest more, bs = Byte.backslash :: Byte.lowerU :: (digits ++ rest) ∧
      SpellsUnit v digits ∧ 0xDC00 ≤ v ∧ v ≤ 0xDFFF ∧
      x = Utf8.encodeChar (paired u v) ++ more ∧ plain.feed rest = some (more, .plain) := by
  rcases bs with _ | ⟨b, _ | ⟨c, bs⟩⟩
  · cases h
  · obtain ⟨_, _, _, hs, h, _⟩ := feed_cons_eq_some h
    rw [step] at hs
    split_ifs at hs
    cases hs
    cases h
  · obtain ⟨_, _, _, hs, h₁, rfl⟩ := feed_cons_eq_some h
    rw [step] at hs
    split_ifs at hs with hb
    cases hs
    obtain ⟨_, _, _, hs, h₂, rfl⟩ := feed_cons_eq_some h₁
    rw [step] at hs
    split_ifs at hs with hc
    cases hs
    obtain ⟨v, digits, rest, added, next, more, hbs, hunit, hf, h₃, rfl⟩ := feed_hex_eq_some h₂
    obtain ⟨ha, hn, hl, hh⟩ := finishHex_some_eq_ok hf
    rw [hn] at h₃
    rw [hb, hc, ha, hbs, List.nil_append, List.nil_append]
    exact ⟨v, digits, rest, more, rfl, hunit, hl, hh, rfl, h₃⟩

theorem lt_of_spellsUnit {v : Nat} {digits : List UInt8} (h : SpellsUnit v digits) :
    v < 0x10000 := by
  have hd : ∀ b i, Byte.hexDigit? b = some i → i < 16 := by
    intro b i hi
    unfold Byte.hexDigit? Byte.isDigit Byte.digit at hi
    simp only [Bool.and_eq_true, decide_eq_true_eq, UInt8.le_iff_toNat_le, UInt8.reduceToNat] at hi
    split_ifs at hi <;> simp only [Option.some.injEq] at hi <;> omega
  cases h with
  | digits ha hb hc hd' =>
    have := hd _ _ ha
    have := hd _ _ hb
    have := hd _ _ hc
    have := hd _ _ hd'
    omega

theorem escapes_of_feed_escape {bs x : List UInt8} (h : escape.feed bs = some (x, .plain)) :
    Escapes (Byte.backslash :: bs) x := by
  cases bs with
  | nil => cases h
  | cons b bs =>
    obtain ⟨_, _, more, hs, h₁, rfl⟩ := feed_cons_eq_some h
    rw [step] at hs
    split at hs
    · next a ha =>
      cases hs
      obtain ⟨c, hc, he⟩ := mem_shortEscapes ha
      exact ⟨c, _, bs, more, rfl, .short hc, by rw [he], h₁⟩
    · split_ifs at hs with hb
      cases hs
      obtain ⟨v, digits, rest, added, next, more, hbs, hunit, hf, h₂, rfl⟩ := feed_hex_eq_some h₁
      rw [hb, hbs, List.nil_append]
      rcases finishHex_none_eq_ok hf with ⟨rfl, rfl, hl, hh⟩ | ⟨rfl, rfl, hv⟩
      · obtain ⟨w, digits', rest', more', hr, hunit', hl', hh', hx, hrest⟩ := feed_half_eq_some h₂
        have hc : (paired v w).toNat = 0x10000 + (v - 0xD800) * 0x400 + (w - 0xDC00) := by
          rw [paired, Utf8.toNat_ofNat_of_valid (by omega)]
          omega
        have hfirst : SpellsUnit (0xD800 + (v - 0xD800)) digits := by
          rw [Nat.add_sub_cancel' hl]
          exact hunit
        have hsecond : SpellsUnit (0xDC00 + (w - 0xDC00)) digits' := by
          rw [Nat.add_sub_cancel' hl']
          exact hunit'
        refine ⟨paired v w, _, rest', more', ?_, .pair (by omega) (by omega) hc hfirst hsecond,
          ?_, hrest⟩
        · rw [hr]
          simp
        · rw [List.nil_append, hx]
      · have hlt := lt_of_spellsUnit hunit
        have hn : (Char.ofNat v).toNat = v := Utf8.toNat_ofNat_of_valid (by omega)
        exact ⟨Char.ofNat v, _, rest, more, rfl, .unit (hn.symm ▸ hunit), rfl, h₂⟩

/-- A piece starts with a byte that stands for itself, or with an escape. -/
theorem feed_plain_cases {b : UInt8} {bs x : List UInt8}
    (h : plain.feed (b :: bs) = some (x, .plain)) :
    (isPlainByte b = true ∧ ∃ y, x = b :: y ∧ plain.feed bs = some (y, .plain)) ∨
      Escapes (b :: bs) x := by
  by_cases hq : b = Byte.quote
  · subst hq
    cases h
  obtain ⟨added, next, more, hs, hm, rfl⟩ := feed_cons_eq_some h
  rw [step] at hs
  split_ifs at hs with hb hc
  · cases hs
    rw [hb]
    exact Or.inr (escapes_of_feed_escape hm)
  · cases hs
    have hp : isPlainByte b = true := by
      simpa [isPlainByte, hq, hb] using hc
    exact Or.inl ⟨hp, more, rfl, hm⟩

theorem feed_tail {tail bs y : List UInt8} (ht : ∀ b ∈ tail, Utf8.IsTail b)
    (h : plain.feed bs = some (tail ++ y, .plain)) :
    ∃ rest, bs = tail ++ rest ∧ plain.feed rest = some (y, .plain) := by
  induction tail generalizing bs with
  | nil => exact ⟨bs, rfl, h⟩
  | cons b tail ih =>
    cases bs with
    | nil => cases h
    | cons a bs =>
      rcases feed_plain_cases h with ⟨_, z, hz, hf⟩ | ⟨c, esc, rest, z, _, _, hz, _⟩
      · obtain ⟨rfl, rfl⟩ := List.cons.inj hz
        obtain ⟨rest, rfl, hr⟩ := ih (fun d hd => ht d (List.mem_cons_of_mem b hd)) hf
        exact ⟨rest, rfl, hr⟩
      · -- an escape adds a whole character, and none starts with such a byte
        obtain ⟨d, more, hd, hlead, _⟩ := Utf8.encodeChar_eq_cons c
        rw [hd] at hz
        cases (List.cons.inj hz).1
        exact absurd (ht b List.mem_cons_self) hlead

/-- A character whose first byte stands for itself needs no escape. -/
theorem spellsChar_of_isPlainByte {c : Char} {a : UInt8} {tail : List UInt8}
    (hc : Utf8.encodeChar c = a :: tail) (ha : isPlainByte a = true) :
    SpellsChar c (Utf8.encodeChar c) := by
  have hne : ∀ d : Char, d.toNat < 0x80 → a ≠ UInt8.ofNat d.toNat → c ≠ d := by
    rintro d hd had rfl
    have he : Utf8.encodeChar c = [UInt8.ofNat c.toNat] := by simp [Utf8.encodeChar, hd]
    rw [he] at hc
    exact had (List.cons.inj hc).1.symm
  simp only [isPlainByte, Bool.and_eq_true, bne_iff_ne, decide_eq_true_eq] at ha
  obtain ⟨⟨hq, hb⟩, hl⟩ := ha
  refine .plain ?_ (hne '"' (by decide) hq) (hne '\\' (by decide) hb)
  by_contra hlt
  have he : Utf8.encodeChar c = [UInt8.ofNat c.toNat] := by
    simp [Utf8.encodeChar, show c.toNat < 0x80 by omega]
  rw [he] at hc
  rw [← (List.cons.inj hc).1, UInt8.le_iff_toNat_le,
    UInt8.toNat_ofNat_of_lt' (show c.toNat < 256 by omega)] at hl
  exact hlt hl

theorem spellsText_of_feed {cs : List Char} {bs : List UInt8}
    (h : plain.feed bs = some (Utf8.encode cs, .plain)) : SpellsText cs bs := by
  induction cs generalizing bs with
  | nil =>
    cases bs with
    | nil => exact .nil
    | cons b bs =>
      rcases feed_plain_cases h with ⟨_, y, hy, _⟩ | ⟨c, _, _, y, _, _, hy, _⟩
      · cases hy
      · obtain ⟨a, tail, ha, _⟩ := Utf8.encodeChar_eq_cons c
        rw [ha] at hy
        cases hy
  | cons c cs ih =>
    obtain ⟨a, tail, ha, _, ht⟩ := Utf8.encodeChar_eq_cons c
    rw [Utf8.encode_cons] at h
    cases bs with
    | nil =>
      rw [ha] at h
      cases h
    | cons b bs =>
      rcases feed_plain_cases h with ⟨hb, y, hy, hf⟩ | ⟨d, esc, rest, y, hbs, hd, hy, hf⟩
      · rw [ha] at hy
        obtain ⟨rfl, rfl⟩ := List.cons.inj hy
        obtain ⟨rest, rfl, hr⟩ := feed_tail ht hf
        have hs := SpellsText.cons (spellsChar_of_isPlainByte ha hb) (ih hr)
        rw [ha] at hs
        exact hs
      · obtain ⟨rfl, rfl⟩ := Utf8.encodeChar_append_inj hy
        rw [hbs]
        exact .cons hd (ih hf)

end StringState

/-- What has been gathered up to the closing quote is what the bytes before it add. -/
theorem exists_feed_of_gatherString {state : StringState} {gathered s x rest : List UInt8}
    (h : gatherString state gathered s = .ok (x, rest)) :
    ∃ text added, s = text ++ Byte.quote :: rest ∧ state.feed text = some (added, .plain) ∧
      x = gathered.reverse ++ added := by
  induction s generalizing state gathered with
  | nil => cases h
  | cons b s ih =>
    rw [gatherString] at h
    split_ifs at h with hq
    · cases h
      obtain ⟨rfl, rfl⟩ := hq
      exact ⟨[], [], rfl, rfl, (List.append_nil _).symm⟩
    · split at h
      · cases h
      · next added next hs =>
        obtain ⟨text, more, rfl, hf, rfl⟩ := ih h
        refine ⟨b :: text, added ++ more, rfl, ?_, by simp⟩
        rw [StringState.feed, if_neg hq]
        simp [hs, hf]

/-- A string is read from each of its spellings, up to the closing quote, and from nothing else. -/
theorem readString_eq_ok_iff {s rest : List UInt8} {name : String} :
    readString s = .ok (name, rest) ↔
      ∃ text, s = text ++ Byte.quote :: rest ∧ SpellsText name.toList text := by
  constructor
  · intro h
    obtain ⟨⟨bytes, more⟩, hg, hn⟩ := bind_eq_ok.mp h
    obtain ⟨text, added, hs, hf, hb⟩ := exists_feed_of_gatherString hg
    dsimp only at hn
    split at hn
    · next name' ht =>
      cases hn
      rw [List.reverse_nil, List.nil_append] at hb
      rw [← hb, Utf8.text?_eq_some_iff.mp ht] at hf
      exact ⟨text, hs, StringState.spellsText_of_feed hf⟩
    · cases hn
  · rintro ⟨text, rfl, ht⟩
    exact ht.readString rest

/-- The text stands in the bytes as a string, between its quotes. -/
def HoldsString (bs : List UInt8) (text : String) : Prop :=
  ∃ before spelling after, bs = before ++ Byte.quote :: (spelling ++ Byte.quote :: after) ∧
    SpellsText text.toList spelling

theorem HoldsString.of_suffix {s t : List UInt8} {text : String} (h : HoldsString t text)
    (hs : t <:+ s) : HoldsString s text := by
  obtain ⟨before, spelling, after, rfl, ht⟩ := h
  obtain ⟨front, rfl⟩ := hs
  exact ⟨front ++ before, spelling, after, (List.append_assoc _ _ _).symm, ht⟩

theorem holdsString_of_readString {s rest : List UInt8} {text : String}
    (h : readString s = .ok (text, rest)) : HoldsString (Byte.quote :: s) text := by
  obtain ⟨spelling, rfl, ht⟩ := readString_eq_ok_iff.mp h
  exact ⟨[], spelling, rest, rfl, ht⟩

end Json
end FaultCodec
