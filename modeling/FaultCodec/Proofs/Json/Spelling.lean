import FaultCodec.Proofs.Json.Document
import FaultCodec.Proofs.Json.Record
import FaultCodec.Proofs.Json.Skip
import Mathlib.Data.List.DropRight

/-!
# Blanks and spelled strings

Blanks in front of a token make no difference, and only some bytes may stand behind a value.
Whatever way a string is spelled, it is read as that string, and it is stepped over as a whole.
-/

namespace FaultCodec
namespace Json

open Text

/-- The bytes that may stand behind a value. -/
def isStop (b : UInt8) : Bool :=
  Byte.isSpace b || b == Byte.comma || b == Byte.closeBracket || b == Byte.closeBrace

/-- A value may end in front of these bytes. -/
def Stops (rest : List UInt8) : Prop := ∀ b ∈ rest.head?, isStop b = true

@[simp] theorem stops_nil : Stops [] := by
  simp [Stops]

@[simp] theorem stops_cons {b : UInt8} {rest : List UInt8} :
    Stops (b :: rest) ↔ isStop b = true := by
  simp [Stops]

theorem isStop_of_isSpace {b : UInt8} (h : Byte.isSpace b = true) : isStop b = true := by
  simp [isStop, h]

/-- What follows a value that stands between two bytes is behind the second one. -/
theorem enclosed_append (b c : UInt8) (text rest : List UInt8) :
    b :: (text ++ [c]) ++ rest = b :: (text ++ c :: rest) := by
  simp

theorem ne_of_isStop_eq_false {b c : UInt8} (hb : isStop b = false) (hc : isStop c = true) :
    b ≠ c := by
  rintro rfl
  simp [hb] at hc

theorem blank_nil : Blank [] := by
  simp [Blank]

theorem Blank.stops_append {space rest : List UInt8} (h : Blank space) (hr : Stops rest) :
    Stops (space ++ rest) := by
  cases space with
  | nil => exact hr
  | cons b space => exact stops_cons.mpr (isStop_of_isSpace (h b List.mem_cons_self))

theorem Blank.skipSpace_append {space : List UInt8} (h : Blank space) (s : List UInt8) :
    skipSpace (space ++ s) = skipSpace s :=
  skipSpace_append_of_space h s

theorem Blank.skipSpace_cons {space : List UInt8} (h : Blank space) {b : UInt8}
    (hb : Byte.isSpace b = false) (s : List UInt8) : skipSpace (space ++ b :: s) = b :: s := by
  rw [h.skipSpace_append, skipSpace_cons_of_not_space s hb]

theorem Blank.skipSpace_closeBrace {space : List UInt8} (h : Blank space) (s : List UInt8) :
    skipSpace (space ++ Byte.closeBrace :: s) = Byte.closeBrace :: s :=
  h.skipSpace_cons (by decide) s

theorem Blank.skipSpace_closeBracket {space : List UInt8} (h : Blank space) (s : List UInt8) :
    skipSpace (space ++ Byte.closeBracket :: s) = Byte.closeBracket :: s :=
  h.skipSpace_cons (by decide) s

theorem Blank.skipSpace_comma {space : List UInt8} (h : Blank space) (text rest : List UInt8) :
    skipSpace (space ++ Byte.comma :: text ++ rest) = Byte.comma :: (text ++ rest) := by
  rw [List.append_assoc]
  exact h.skipSpace_cons (by decide) (text ++ rest)

@[simp] theorem skipSpace_skipSpace (s : List UInt8) : skipSpace (skipSpace s) = skipSpace s :=
  List.dropWhile_idempotent _ s

/-! ## Strings -/

theorem StringState.feed_unit {v : Nat} {digits added : List UInt8} {high : Option Nat}
    {next : StringState} (h : SpellsUnit v digits) (hf : finishHex high v = .ok (added, next)) :
    (hex high 0 (some 0)).feed digits = some (added, next) := by
  cases h with
  | digits ha hb hc hd => simp [feed, step, ha, hb, hc, hd, hf]

theorem StringState.feed_unitEscape :
    plain.feed [Byte.backslash, Byte.lowerU] = some ([], .hex none 0 (some 0)) := rfl

theorem StringState.feed_half (high : Nat) :
    (half high).feed [Byte.backslash, Byte.lowerU] = some ([], .hex (some high) 0 (some 0)) := rfl

theorem StringState.feed_short : ∀ e ∈ shortEscapes,
    plain.feed [Byte.backslash, e.1] = some (Utf8.encodeChar e.2, .plain) := by
  decide

theorem escapeChar_of_plain {c : Char} (hc : 0x20 ≤ c.toNat) (hq : c ≠ '"') (hb : c ≠ '\\') :
    escapeChar c = [c] := by
  have hne : ∀ d : Char, d.toNat < 0x20 → c ≠ d := by
    rintro d hd rfl
    omega
  simp only [escapeChar]
  rw [if_neg hq, if_neg hb, if_neg (hne _ (by decide)), if_neg (hne _ (by decide)),
    if_neg (hne _ (by decide)), if_neg (hne _ (by decide)), if_neg (hne _ (by decide)),
    if_neg (by omega), if_neg (by omega)]

theorem SpellsChar.feed {c : Char} {bs : List UInt8} (h : SpellsChar c bs) :
    StringState.plain.feed bs = some (Utf8.encodeChar c, .plain) := by
  cases h with
  | plain hc hq hb =>
    have hf := StringState.feed_escapeChar c
    rw [escapeChar_of_plain hc hq hb] at hf
    simpa using hf
  | short h => exact StringState.feed_short _ h
  | @unit _ digits h =>
    have hc := Utf8.toNat_bounds c
    have hf : StringState.finishHex none c.toNat = .ok (Utf8.encodeChar c, .plain) := by
      rw [StringState.finishHex, if_neg (by omega), if_neg (by omega), Char.ofNat_toNat]
    have hd := StringState.feed_unit h hf
    simpa using StringState.feed_append StringState.feed_unitEscape hd
  | @pair _ high low first second hhigh hlow hc hfirst hsecond =>
    have hf₁ : StringState.finishHex none (0xD800 + high) = .ok ([], .half (0xD800 + high)) := by
      rw [StringState.finishHex, if_neg (by omega), if_pos (by omega)]
    have hf₂ : StringState.finishHex (some (0xD800 + high)) (0xDC00 + low) =
        .ok (Utf8.encodeChar c, .plain) := by
      have hn : (0xD800 + high - 0xD800) * 0x400 + (0xDC00 + low - 0xDC00) + 0x10000 = c.toNat := by
        omega
      rw [StringState.finishHex, if_pos (by omega), hn, Char.ofNat_toNat]
    have h₁ := StringState.feed_unit hfirst hf₁
    have h₂ := StringState.feed_unit hsecond hf₂
    have h₃ := StringState.feed_append (StringState.feed_half (0xD800 + high)) h₂
    have h₄ := StringState.feed_append h₁ h₃
    simpa using StringState.feed_append StringState.feed_unitEscape h₄

theorem SpellsText.feed {cs : List Char} {bs : List UInt8} (h : SpellsText cs bs) :
    StringState.plain.feed bs = some (Utf8.encode cs, .plain) := by
  induction h with
  | nil => rfl
  | cons hfirst hrest ih => exact StringState.feed_append hfirst.feed ih

/-- The characters that need no escape. -/
def isPlainChar (c : Char) : Bool := 0x20 ≤ c.toNat && c != '"' && c != '\\'

theorem SpellsText.of_plain {cs : List Char} (h : cs.all isPlainChar = true) :
    SpellsText cs (Utf8.encode cs) := by
  induction cs with
  | nil => exact .nil
  | cons c cs ih =>
    simp only [List.all_cons, isPlainChar, Bool.and_eq_true, decide_eq_true_eq, bne_iff_ne,
      ne_eq] at h
    obtain ⟨⟨⟨hc, hq⟩, hb⟩, hcs⟩ := h
    rw [Utf8.encode_cons]
    exact .cons (.plain hc hq hb) (ih hcs)

theorem SpellsText.readString {s : String} {bs : List UInt8} (h : SpellsText s.toList bs)
    (rest : List UInt8) : readString (bs ++ Byte.quote :: rest) = .ok (s, rest) :=
  readString_of_feed h.feed rest

/-- The bytes that stand for themselves in a string. -/
def isPlainByte (b : UInt8) : Bool := b != Byte.quote && b != Byte.backslash && 0x20 ≤ b

theorem skipString_of_plain {bs : List UInt8} (h : ∀ b ∈ bs, isPlainByte b = true)
    (rest : List UInt8) : skipString .plain (bs ++ rest) = skipString .plain rest := by
  induction bs with
  | nil => rfl
  | cons b bs ih =>
    have hb := h b List.mem_cons_self
    have hbs := ih fun c hc => h c (List.mem_cons_of_mem b hc)
    simp only [isPlainByte, Bool.and_eq_true, bne_iff_ne, ne_eq, decide_eq_true_eq] at hb
    obtain ⟨⟨hq, hs⟩, hc⟩ := hb
    have hl : ¬b < 0x20 := UInt8.not_lt.mpr hc
    simp [skipString, hq, hs, hl, hbs]

theorem isPlainByte_of_ascii : ∀ n < 0x80, 0x20 ≤ n → Char.ofNat n ≠ '"' → Char.ofNat n ≠ '\\' →
    (Utf8.encodeChar (Char.ofNat n)).all isPlainByte = true := by
  decide +kernel

theorem isPlainByte_of_le {b : UInt8} (h : 0x80 ≤ b) : isPlainByte b = true := by
  have hb : 0x80 ≤ b.toNat := UInt8.le_iff_toNat_le.mp h
  have hq : b ≠ Byte.quote := by rintro rfl; exact absurd hb (by decide)
  have hs : b ≠ Byte.backslash := by rintro rfl; exact absurd hb (by decide)
  have hc : 0x20 ≤ b := UInt8.le_iff_toNat_le.mpr (Nat.le_trans (by decide) hb)
  simp [isPlainByte, hq, hs, hc]

theorem isPlainByte_of_mem_encodeChar {c : Char} (hc : 0x20 ≤ c.toNat) (hq : c ≠ '"')
    (hb : c ≠ '\\') {b : UInt8} (h : b ∈ Utf8.encodeChar c) : isPlainByte b = true := by
  by_cases ha : c.toNat < 0x80
  · have hp := isPlainByte_of_ascii c.toNat ha hc
    rw [Char.ofNat_toNat] at hp
    exact List.all_eq_true.mp (hp hq hb) b h
  · exact isPlainByte_of_le (Utf8.le_of_mem_encodeChar (Nat.not_lt.mp ha) h)

theorem SpellsUnit.skipString {v : Nat} {digits : List UInt8} (h : SpellsUnit v digits)
    (rest : List UInt8) : skipString (.hex 0 true) (digits ++ rest) = skipString .plain rest := by
  cases h with
  | digits ha hb hc hd => simp [Json.skipString, ha, hb, hc, hd]

theorem skipString_short : ∀ e ∈ shortEscapes,
    (StringState.shortEscape? e.1).isSome = true := by
  decide

theorem skipString_escape (s : List UInt8) :
    skipString .plain (Byte.backslash :: s) = skipString .escape s := rfl

theorem skipString_unit (s : List UInt8) :
    skipString .escape (Byte.lowerU :: s) = skipString (.hex 0 true) s := rfl

theorem SpellsChar.skipString {c : Char} {bs : List UInt8} (h : SpellsChar c bs)
    (rest : List UInt8) : skipString .plain (bs ++ rest) = skipString .plain rest := by
  cases h with
  | plain hc hq hb =>
    exact skipString_of_plain (fun b => isPlainByte_of_mem_encodeChar hc hq hb) rest
  | @short b _ h =>
    have hs := skipString_short _ h
    rw [List.cons_append, skipString_escape, List.singleton_append, Json.skipString, if_pos hs]
  | unit h =>
    rw [List.cons_append, List.cons_append, skipString_escape, skipString_unit, h.skipString]
  | pair hhigh hlow hc hfirst hsecond =>
    rw [List.cons_append, List.cons_append, skipString_escape, skipString_unit, List.append_assoc,
      hfirst.skipString, List.cons_append, List.cons_append, skipString_escape, skipString_unit,
      hsecond.skipString]

theorem SpellsText.skipString {cs : List Char} {bs : List UInt8} (h : SpellsText cs bs)
    (rest : List UInt8) : skipString .plain (bs ++ Byte.quote :: rest) = .ok rest := by
  induction h with
  | nil => rfl
  | cons hfirst hrest ih => rw [List.append_assoc, hfirst.skipString, ih]

end Json
end FaultCodec
