import FaultCodec.Proofs.Json.Filling
import FaultCodec.Proofs.Payload
import FaultCodec.Proofs.Status.Damage

/-!
# The documents of payloads

A payload is described by an object with one member for its tag and at most one for its reason,
among any others, or by a list of the two. The bytes of a document are read as just the payload that
it describes, whatever way they are written, and no other document is read at all.
-/

namespace FaultCodec
namespace Payload

open Json (Blank Decides Document Layout Slot SpellsText SpellsUnit blank_nil exists_getD_eq_iff)
open Json.Document (Spelled Spells named)

inductive Describes : Document → Payload → Prop
  | object {ms : List (String × Document)} {w : Document} {t : Tag} {reason : String}
      (htag : named "subtype" ms = [w]) (hw : w.Names t.text)
      (hreason : (named "reason" ms = [] ∧ reason = "") ∨ named "reason" ms = [.string reason]) :
      Describes (.object ms) ⟨t, reason⟩
  | tag {w : Document} {t : Tag} (hw : w.Names t.text) : Describes (.list [w]) ⟨t, ""⟩
  | both {w : Document} {t : Tag} (hw : w.Names t.text) (reason : String) :
      Describes (.list [w, .string reason]) ⟨t, reason⟩

def tagSlot : Slot Draft where
  name := "subtype"
  Value := Tag
  read := readTag
  Means := fun v t => v.Names t.text
  get := Draft.tag
  put := fun d t => { d with tag := some t }
  decides := Json.decides_readChoice_of_texts lookup_text
  get_put := fun _ _ => rfl

def reasonSlot : Slot Draft where
  name := "reason"
  Value := String
  read := Json.readText
  Means := fun v r => v = .string r
  get := Draft.reason
  put := fun d r => { d with reason := some r }
  decides := Json.decides_readText
  get_put := fun _ _ => rfl

def layout : Layout record where
  slots := [tagSlot, reasonSlot]
  fields_eq := rfl
  nodup := by decide
  apart := by
    have h : Slot.Apart tagSlot reasonSlot := ⟨fun _ _ => rfl, fun _ _ => rfl⟩
    simp [h]
  ext := by
    intro d e h
    have ht : d.tag = e.tag := h tagSlot (by simp)
    have hr : d.reason = e.reason := h reasonSlot (by simp)
    obtain ⟨t, r⟩ := d
    cases ht
    cases hr
    rfl

theorem finish_eq_ok_iff {d : Draft} {p : Payload} :
    record.finish d = .ok p ↔ d.tag = some p.tag ∧ d.reason.getD "" = p.reason := by
  obtain ⟨tag, reason⟩ := d
  obtain ⟨t, r⟩ := p
  cases tag with
  | none => simp [record]
  | some u => simp [record]

theorem run_iff {ms : List (String × Document)} {d : Draft} :
    layout.Run {} ms d ↔
      ((named "subtype" ms = [] ∧ d.tag = none) ∨
        ∃ w t, named "subtype" ms = [w] ∧ w.Names t.text ∧ d.tag = some t) ∧
      ((named "reason" ms = [] ∧ d.reason = none) ∨
        ∃ w r, named "reason" ms = [w] ∧ w = .string r ∧ d.reason = some r) := by
  have ht : tagSlot.Holds {} ms d ↔ _ := Slot.holds_of_empty rfl
  have hr : reasonSlot.Holds {} ms d ↔ _ := Slot.holds_of_empty rfl
  rw [Layout.run_iff]
  simp only [layout, List.forall_mem_cons, List.not_mem_nil, IsEmpty.forall_iff, implies_true,
    and_true, ht, hr]
  rfl

theorem describes_of_makes {v : Document} {p : Payload} (h : layout.Makes v p) : Describes v p := by
  obtain ⟨t, reason⟩ := p
  cases h with
  | @object ms d _ hrun hd =>
    obtain ⟨htag, hreason⟩ := run_iff.mp hrun
    obtain ⟨ht, hr⟩ := finish_eq_ok_iff.mp hd
    rcases htag with ⟨_, hg⟩ | ⟨w, u, hn, hw, hg⟩
    · exact absurd (hg.symm.trans ht) nofun
    · cases hg.symm.trans ht
      have hr := (exists_getD_eq_iff fun v r => v = .string r).mp ⟨_, hreason, hr⟩
      exact .object hn hw (by simpa using hr)
  | list hfills hd =>
    obtain ⟨ht, hr⟩ := finish_eq_ok_iff.mp hd
    cases hfills with
    | nil => cases ht
    | cons head tail =>
      obtain ⟨u, hw, rfl⟩ := head
      cases tail with
      | nil =>
        cases ht
        cases hr
        exact .tag hw
      | cons head tail =>
        obtain ⟨r, rfl, rfl⟩ := head
        cases tail
        cases ht
        cases hr
        exact .both hw _

theorem makes_of_describes {v : Document} {p : Payload} (h : Describes v p) : layout.Makes v p := by
  cases h with
  | @object ms w t reason htag hw hreason =>
    have hr : (named "reason" ms = [] ∧ reason = "") ∨
        ∃ w, named "reason" ms = [w] ∧ w = .string reason := by
      simpa using hreason
    obtain ⟨o, ho, hr⟩ := (exists_getD_eq_iff fun v r => v = .string r).mpr hr
    have hrun : layout.Run {} ms ⟨some t, o⟩ := run_iff.mpr ⟨Or.inr ⟨w, t, htag, hw, rfl⟩, ho⟩
    exact .object hrun (finish_eq_ok_iff.mpr ⟨rfl, hr⟩)
  | tag hw => exact .list (.cons ⟨_, hw, rfl⟩ .nil) rfl
  | both hw reason => exact .list (.cons ⟨_, hw, rfl⟩ (.cons ⟨reason, rfl, rfl⟩ .nil)) rfl

theorem decides_read : Decides read Describes := by
  intro v text before rest h hb hr p more
  rw [read, layout.decides h hb hr]
  exact and_congr_right fun _ => ⟨describes_of_makes, makes_of_describes⟩

theorem ofBytes_eq_some_iff {v : Document} {text : List UInt8} (h : Spelled v text) (p : Payload) :
    ofBytes text = .ok (some p) ↔ Describes v p := by
  rw [ofBytes, if_neg (by simpa using h.ne_nil), ← decides_read.parse h]
  cases Json.parse read text with
  | error e => simp [Except.map]
  | ok q => simp [Except.map]

theorem ofBytes_eq_error_of_not_describes {v : Document} {text : List UInt8} (h : Spelled v text)
    (hd : ∀ p, ¬Describes v p) : ∃ e, ofBytes text = .error e := by
  cases hr : ofBytes text with
  | error e => exact ⟨e, rfl⟩
  | ok o =>
    cases o with
    | none => exact absurd (ofBytes_eq_none_iff.mp hr) h.ne_nil
    | some p => exact absurd ((ofBytes_eq_some_iff h p).mp hr) (hd p)

/-- No bytes are no payload. The bytes of a document are read as a payload exactly if the document
describes it. The bytes of any other document are unreadable, and a fault that comes with them is
the fallback for its code and its message. -/
theorem ofBytes_document {v : Document} {text : List UInt8} (h : Spelled v text) :
    ofBytes [] = .ok none ∧
    (∀ p, ofBytes text = .ok (some p) ↔ Describes v p) ∧
    ((∀ p, ¬Describes v p) → ∃ e, ofBytes text = .error e ∧
      ∀ code message, code ≠ .ok →
        Status.decodeParts code message text =
          ⟨some (Status.stripped code message).fallback,
            [Status.undecodableNote code text e,
              (Status.stripped code message).fallbackWarning]⟩) := by
  refine ⟨rfl, ofBytes_eq_some_iff h, ?_⟩
  intro hd
  obtain ⟨e, he⟩ := ofBytes_eq_error_of_not_describes h hd
  exact ⟨e, he, fun code message hc => Status.decodeParts_of_error hc message he⟩

/-- A number below zero, without digits behind a point and without an exponent. -/
def minusZero : Json.Numeral := ⟨true, [Json.Byte.zero], [], [], .zero, .none, .none⟩

/-- An unknown member, a tag in an object of its own and a reason. -/
def foreign : Document := .object [("extra", .list [.number minusZero, .null]),
  ("subtype", .object [("CONFLICT", .null)]), ("reason", .string "a\u00e9")]

/-- Blanks stand around some tokens, and the last character of the reason is written by its
number. -/
def foreignText : List UInt8 := Text.Utf8.bytes
    " \x7b\"extra\":[-0 ,null], \"subtype\":\x7b\"CONFLICT\":null\x7d,\"reason\":\"a\\u00E9\"\x7d"

theorem spelled_foreign : Spelled foreign foreignText := by
  have hspace : Blank [0x20] := by decide
  have hlist : Spells (.value (.list [.number minusZero, .null])) _ :=
    .list (.items blank_nil (.number _) (.nextItem hspace
      (.items blank_nil .null (.lastItem blank_nil))))
  have hextra : SpellsText "extra".toList _ := .of_plain (by decide)
  have hconflict : SpellsText "CONFLICT".toList _ := .of_plain (by decide)
  have htag : Spells (.value (.object [("CONFLICT", .null)])) _ :=
    .object (.members blank_nil (.member hconflict blank_nil blank_nil .null)
      (.lastMember blank_nil))
  have hsubtype : SpellsText "subtype".toList _ := .of_plain (by decide)
  have hunit : SpellsUnit 'é'.toNat _ :=
    @SpellsUnit.digits 0x30 0x30 0x45 0x39 0 0 14 9 rfl rfl rfl rfl
  have htext : SpellsText "a\u00e9".toList _ :=
    .cons (.plain (by decide) (by decide) (by decide)) (.cons (.unit hunit) .nil)
  have hreason : SpellsText "reason".toList _ := .of_plain (by decide)
  have hmembers := Spells.members blank_nil (.member hextra blank_nil blank_nil hlist)
    (.nextMember blank_nil (.members hspace (.member hsubtype blank_nil blank_nil htag)
      (.nextMember blank_nil (.members blank_nil
        (.member hreason blank_nil blank_nil (.string htext)) (.lastMember blank_nil)))))
  exact ⟨[0x20], _, [], hspace, .object hmembers, blank_nil, by decide⟩

theorem ofBytes_document_foreign : Spelled foreign foreignText ∧
    ofBytes foreignText = .ok (some ⟨.conflict, "a\u00e9"⟩) := by
  refine ⟨spelled_foreign, ((ofBytes_document spelled_foreign).2.1 _).mpr ?_⟩
  exact .object rfl (Or.inr rfl) (Or.inr rfl)

end Payload
end FaultCodec
