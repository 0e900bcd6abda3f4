import FaultCodec.Json.Value
import FaultCodec.Proofs.Json.Whole

/-!
# Written values are spelled

A value is written as a spelling of its document: strings between quotes with the escapes of their
characters, numbers by their digits, and no blanks between the tokens. What readers decide about
documents holds of everything that is written.
-/

namespace FaultCodec
namespace Json

open Document (Spells Spelled)
open Text

/-! ## Strings -/

theorem hexDigit?_digitChar : ∀ d < 16, ∃ b, Utf8.encodeChar (Nat.digitChar d) = [b] ∧
    Byte.hexDigit? b = some d := by
  have h : ∀ d < 16, (Utf8.encodeChar (Nat.digitChar d)).map Byte.hexDigit? = [some d] := by
    decide
  exact fun d hd => List.map_eq_singleton_iff.mp (h d hd)

theorem spellsUnit_low {n : Nat} (h : n < 0x10) :
    SpellsUnit n (Utf8.encode (['0', '0', '0'] ++ hexDigits n)) := by
  obtain ⟨b, he, hb⟩ := hexDigit?_digitChar n h
  have hz : Byte.hexDigit? 0x30 = some 0 := rfl
  have hu := SpellsUnit.digits hz hz hz hb
  have hn : ((0 * 16 + 0) * 16 + 0) * 16 + n = n := by omega
  rw [hn] at hu
  rw [hexDigits, Nat.toDigits_of_lt_base h, Utf8.encode_append, Utf8.encode_cons n.digitChar, he]
  exact hu

theorem spellsUnit_high {n : Nat} (hl : 0x10 ≤ n) (h : n < 0x20) :
    SpellsUnit n (Utf8.encode (['0', '0'] ++ hexDigits n)) := by
  obtain ⟨b, he, hb⟩ := hexDigit?_digitChar (n % 16) (Nat.mod_lt n (by decide))
  have hz : Byte.hexDigit? 0x30 = some 0 := rfl
  have ho : Byte.hexDigit? 0x31 = some 1 := rfl
  have hu := SpellsUnit.digits hz hz ho hb
  have hn : ((0 * 16 + 0) * 16 + 1) * 16 + n % 16 = n := by omega
  have hd : n / 16 = 1 := by omega
  rw [hn] at hu
  rw [hexDigits, Nat.toDigits_eq_if (by decide), if_neg (by omega), hd, Utf8.encode_append,
    Utf8.encode_append, Utf8.encode_cons (n % 16).digitChar, he]
  exact hu

theorem spellsChar_escapeChar (c : Char) : SpellsChar c (Utf8.encode (escapeChar c)) := by
  fun_cases escapeChar c with
  | case1 => exact .short (b := Byte.quote) (by subst c; decide)
  | case2 => exact .short (b := Byte.backslash) (by subst c; decide)
  | case3 => exact .short (b := Byte.lowerB) (by subst c; decide)
  | case4 => exact .short (b := Byte.lowerF) (by subst c; decide)
  | case5 => exact .short (b := Byte.lowerN) (by subst c; decide)
  | case6 => exact .short (b := Byte.lowerR) (by subst c; decide)
  | case7 => exact .short (b := Byte.lowerT) (by subst c; decide)
  | case8 _ _ _ _ _ _ _ h => exact .unit (spellsUnit_low h)
  | case9 _ _ _ _ _ _ _ hl h => exact .unit (spellsUnit_high (Nat.not_lt.mp hl) h)
  | case10 hq hb _ _ _ _ _ _ h =>
    rw [Utf8.encode_cons, Utf8.encode_nil, List.append_nil]
    exact .plain (Nat.not_lt.mp h) hq hb

theorem spellsText_escape (cs : List Char) :
    SpellsText cs (Utf8.encode (cs.flatMap escapeChar)) := by
  induction cs with
  | nil => exact .nil
  | cons c cs ih =>
    rw [List.flatMap_cons, Utf8.encode_append]
    exact .cons (spellsChar_escapeChar c) ih

/-! ## Values -/

namespace Value

mutual

/-- The document that a value is written as. -/
def document : Value → Document
  | .null => .null
  | .boolean b => .boolean b
  | .number n => .number (.ofNat n)
  | .string s => .string s
  | .list items => .list (documents items)
  | .object members => .object (documentMembers members)

def documents : List Value → List Document
  | [] => []
  | v :: rest => v.document :: documents rest

def documentMembers : List (String × Value) → List (String × Document)
  | [] => []
  | (name, v) :: rest => (name, v.document) :: documentMembers rest

end

mutual

theorem spells_render : ∀ v : Value, Spells (.value v.document) (Utf8.bytes v.render)
  | .null => .null
  | .boolean b => .boolean b
  | .number n => by
    rw [render, ← Numeral.text_ofNat]
    exact .number (.ofNat n)
  | .string s => by
    rw [render, bytes_quote]
    exact .string (spellsText_escape s.toList)
  | .list [] => .emptyList blank_nil
  | .list (v :: rest) => by
    have h := Spells.list (spells_renderItems (v :: rest) nofun)
    rw [render, Utf8.bytes_append, Utf8.bytes_append]
    exact h
  | .object [] => .emptyObject blank_nil
  | .object (m :: rest) => by
    have h := Spells.object (spells_renderMembers (m :: rest) nofun)
    rw [render, Utf8.bytes_append, Utf8.bytes_append]
    exact h

theorem spells_renderItems : ∀ items : List Value, items ≠ [] →
    Spells (.items (documents items)) (Utf8.bytes (renderItems items))
  | [], h => absurd rfl h
  | [v], _ => by
    have h := Spells.items blank_nil (spells_render v) (.lastItem blank_nil)
    rwa [List.append_nil] at h
  | v :: w :: rest, _ => by
    have h := Spells.items blank_nil (spells_render v)
      (.nextItem blank_nil (spells_renderItems (w :: rest) nofun))
    rw [renderItems, Utf8.bytes_append, Utf8.bytes_append, List.append_assoc]
    exact h

theorem spells_renderMembers : ∀ members : List (String × Value), members ≠ [] →
    Spells (.members (documentMembers members)) (Utf8.bytes (renderMembers members))
  | [], h => absurd rfl h
  | [m], _ => by
    have h := Spells.members blank_nil (spells_renderMember m) (.lastMember blank_nil)
    rwa [List.append_nil] at h
  | m :: n :: rest, _ => by
    have h := Spells.members blank_nil (spells_renderMember m)
      (.nextMember blank_nil (spells_renderMembers (n :: rest) nofun))
    rw [renderMembers, Utf8.bytes_append, Utf8.bytes_append, List.append_assoc]
    exact h

theorem spells_renderMember : ∀ m : String × Value,
    Spells (.member (m.1, m.2.document)) (Utf8.bytes (renderMember m))
  | (name, v) => by
    have h := Spells.member (spellsText_escape name.toList) blank_nil blank_nil (spells_render v)
    rw [renderMember, Utf8.bytes_append, Utf8.bytes_append, bytes_quote, stringTail,
      List.cons_append, List.cons_append, List.append_assoc, List.append_assoc]
    exact h

end

theorem spelled_bytes (v : Value) : Spelled v.document v.bytes :=
  ⟨[], _, [], blank_nil, v.spells_render, blank_nil, (List.append_nil _).symm⟩

end Value
end Json
end FaultCodec
