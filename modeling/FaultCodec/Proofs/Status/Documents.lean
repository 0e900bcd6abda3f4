import FaultCodec.Proofs.Payload.Documents
import FaultCodec.Proofs.Status.Transport

/-!
# The documents of statuses

A status is described by an object with one member for its code and at most one each for its message
and its payload, among any others. The payload among the members is read as it is when it stands
alone, with two differences: `null` stands for no payload, and where the value is no payload there
is no status at all.
-/

namespace FaultCodec
namespace Status

open Json (Blank Document Layout Slot SpellsText blank_nil exists_getD_eq_iff)
open Json.Document (Spelled Spells named)

def codeSlot : Slot Draft where
  name := "code"
  Value := Code
  read := readCode
  Means := fun v c => v.Names c.name
  get := Draft.code
  put := fun d c => { d with code := some c }
  decides := Json.decides_readChoice_of_texts lookup_name
  get_put := fun _ _ => rfl

def messageSlot : Slot Draft where
  name := "message"
  Value := String
  read := Json.readText
  Means := fun v m => v = .string m
  get := Draft.message
  put := fun d m => { d with message := some m }
  decides := Json.decides_readText
  get_put := fun _ _ => rfl

/-- What a document among the members says about the payload. -/
def DescribesDetails (v : Document) (payload : Option Payload) : Prop :=
  (v = .null ∧ payload = none) ∨ (v ≠ .null ∧ ∃ p, payload = some p ∧ Payload.Describes v p)

def detailsSlot : Slot Draft where
  name := "details"
  Value := Option Payload
  read := Json.readOptional Payload.read
  Means := DescribesDetails
  get := Draft.payload
  put := fun d p => { d with payload := some p }
  decides := Payload.decides_read.optional
  get_put := fun _ _ => rfl

def layout : Layout record where
  slots := [codeSlot, messageSlot, detailsSlot]
  fields_eq := rfl
  nodup := by decide
  apart := by
    have hm : Slot.Apart codeSlot messageSlot := ⟨fun _ _ => rfl, fun _ _ => rfl⟩
    have hp : Slot.Apart codeSlot detailsSlot := ⟨fun _ _ => rfl, fun _ _ => rfl⟩
    have hmp : Slot.Apart messageSlot detailsSlot := ⟨fun _ _ => rfl, fun _ _ => rfl⟩
    simp [hm, hp, hmp]
  ext := by
    intro d e h
    have hc : d.code = e.code := h codeSlot (by simp)
    have hm : d.message = e.message := h messageSlot (by simp)
    have hp : d.payload = e.payload := h detailsSlot (by simp)
    obtain ⟨c, m, p⟩ := d
    cases hc
    cases hm
    cases hp
    rfl

theorem finish_eq_ok_iff {d : Draft} {s : Status} : record.finish d = .ok s ↔
    d.code = some s.code ∧ d.message.getD "" = s.message ∧ d.payload.getD none = s.payload := by
  obtain ⟨code, message, payload⟩ := d
  obtain ⟨c, m, p⟩ := s
  cases code with
  | none => simp [record]
  | some u => simp [record]

theorem run_iff {ms : List (String × Document)} {d : Draft} :
    layout.Run {} ms d ↔
      ((named "code" ms = [] ∧ d.code = none) ∨
        ∃ w c, named "code" ms = [w] ∧ w.Names c.name ∧ d.code = some c) ∧
      ((named "message" ms = [] ∧ d.message = none) ∨
        ∃ w m, named "message" ms = [w] ∧ w = .string m ∧ d.message = some m) ∧
      ((named "details" ms = [] ∧ d.payload = none) ∨
        ∃ w p, named "details" ms = [w] ∧ DescribesDetails w p ∧ d.payload = some p) := by
  have hc : codeSlot.Holds {} ms d ↔ _ := Slot.holds_of_empty rfl
  have hm : messageSlot.Holds {} ms d ↔ _ := Slot.holds_of_empty rfl
  have hp : detailsSlot.Holds {} ms d ↔ _ := Slot.holds_of_empty rfl
  rw [Layout.run_iff]
  simp only [layout, List.forall_mem_cons, List.not_mem_nil, IsEmpty.forall_iff, implies_true,
    and_true, hc, hm, hp]
  rfl

/-- The members are those of a status, among any others. -/
structure Describes (ms : List (String × Document)) (s : Status) : Prop where
  code : ∃ w, named "code" ms = [w] ∧ w.Names s.code.name
  message : (named "message" ms = [] ∧ s.message = "") ∨ named "message" ms = [.string s.message]
  details : (named "details" ms = [] ∧ s.payload = none) ∨
    ∃ w, named "details" ms = [w] ∧ DescribesDetails w s.payload

theorem describes_of_run {ms : List (String × Document)} {d : Draft} {s : Status}
    (h : layout.Run {} ms d) (hd : record.finish d = .ok s) : Describes ms s := by
  obtain ⟨hcode, hmessage, hdetails⟩ := run_iff.mp h
  obtain ⟨hc, hm, hp⟩ := finish_eq_ok_iff.mp hd
  constructor
  case code =>
    rcases hcode with ⟨_, hg⟩ | ⟨w, c, hn, hw, hg⟩
    · exact absurd (hg.symm.trans hc) nofun
    · cases hg.symm.trans hc
      exact ⟨w, hn, hw⟩
  case message =>
    have hm := (exists_getD_eq_iff fun v m => v = .string m).mp ⟨_, hmessage, hm⟩
    simpa using hm
  case details => exact (exists_getD_eq_iff DescribesDetails).mp ⟨_, hdetails, hp⟩

theorem run_of_describes {ms : List (String × Document)} {s : Status} (h : Describes ms s) :
    ∃ d, layout.Run {} ms d ∧ record.finish d = .ok s := by
  obtain ⟨w, hn, hw⟩ := h.code
  have hm : (named "message" ms = [] ∧ s.message = "") ∨
      ∃ w, named "message" ms = [w] ∧ w = .string s.message := by
    simpa using h.message
  obtain ⟨message, hmessage, hm⟩ := (exists_getD_eq_iff fun v m => v = .string m).mpr hm
  obtain ⟨payload, hdetails, hp⟩ := (exists_getD_eq_iff DescribesDetails).mpr h.details
  exact ⟨⟨some s.code, message, payload⟩,
    run_iff.mpr ⟨Or.inr ⟨w, s.code, hn, hw, rfl⟩, hmessage, hdetails⟩,
    finish_eq_ok_iff.mpr ⟨rfl, hm, hp⟩⟩

/-- The bytes of an object are read as just the statuses that its members describe. -/
theorem ofJson_eq_ok_iff {ms : List (String × Document)} {text : List UInt8}
    (h : Spelled (.object ms) text) (s : Status) : ofJson text = .ok s ↔ Describes ms s := by
  rw [ofJson, layout.decides.parse h, Layout.makes_object]
  constructor
  · rintro ⟨d, hrun, hd⟩
    exact describes_of_run hrun hd
  · exact run_of_describes

/-- A payload that stands alone in any spelling is the one that the members describe. -/
theorem describesDetails_of_ofBytes {w : Document} {t : List UInt8} (h : Spelled w t) {p : Payload}
    (hp : Payload.ofBytes t = .ok (some p)) : DescribesDetails w (some p) := by
  have hd := (Payload.ofBytes_eq_some_iff h p).mp hp
  refine Or.inr ⟨?_, p, rfl, hd⟩
  rintro rfl
  cases hd

theorem ofParts_of_ofBytes {t : List UInt8} {p : Payload} (hp : Payload.ofBytes t = .ok (some p))
    (c : Code) (m : String) : ofParts c m t = .quiet ⟨c, m, some p⟩ := by
  simp only [ofParts, hp]

/-- An object has the code and the message that its members of these names say, whatever else it
holds. Without details, or with `null` for them, it is read as the status of these without a
payload. Details that are read as a payload when they stand alone give the status, and so the fault,
that the code, the message and the bytes of the details give as parts. With any other details it is
not read at all. -/
theorem ofJson_details {ms : List (String × Document)} {text : List UInt8} {c : Code} {m : String}
    (h : Spelled (.object ms) text) (hc : named "code" ms = [.string c.name])
    (hm : (named "message" ms = [] ∧ m = "") ∨ named "message" ms = [.string m]) :
    (named "details" ms = [] ∨ named "details" ms = [.null] → ofJson text = .ok ⟨c, m, none⟩) ∧
    (∀ w t, named "details" ms = [w] → Spelled w t → ∀ p, Payload.ofBytes t = .ok (some p) →
      ofJson text = .ok ⟨c, m, some p⟩ ∧ ofParts c m t = .quiet ⟨c, m, some p⟩ ∧
      decodeParts c m t = decode ⟨c, m, some p⟩) ∧
    (∀ w t, named "details" ms = [w] → w ≠ .null → Spelled w t →
      (∀ p, Payload.ofBytes t ≠ .ok (some p)) → ∃ e, ofJson text = .error e) := by
  have hread : ∀ payload, ((named "details" ms = [] ∧ payload = none) ∨
      ∃ w, named "details" ms = [w] ∧ DescribesDetails w payload) →
      ofJson text = .ok ⟨c, m, payload⟩ := fun payload hp =>
    (ofJson_eq_ok_iff h _).mpr ⟨⟨_, hc, Or.inl rfl⟩, hm, hp⟩
  refine ⟨?_, ?_, ?_⟩
  · rintro (hn | hn)
    · exact hread none (Or.inl ⟨hn, rfl⟩)
    · exact hread none (Or.inr ⟨_, hn, Or.inl ⟨rfl, rfl⟩⟩)
  · intro w t hn ht p hp
    have ho := ofParts_of_ofBytes hp c m
    refine ⟨hread (some p) (Or.inr ⟨w, hn, describesDetails_of_ofBytes ht hp⟩), ho, ?_⟩
    rw [decodeParts, ho]
    rfl
  · intro w t hn hw ht hno
    cases hs : ofJson text with
    | error e => exact ⟨e, rfl⟩
    | ok s =>
      rcases ((ofJson_eq_ok_iff h s).mp hs).details with ⟨hd, _⟩ | ⟨u, hd, hu⟩
      · cases hn.symm.trans hd
      · cases hn.symm.trans hd
        rcases hu with ⟨hnull, _⟩ | ⟨_, p, _, hp⟩
        · exact absurd hnull hw
        · exact absurd ((Payload.ofBytes_eq_some_iff ht p).mpr hp) (hno p)

/-- Details in the form of a list, an unknown member, a code and no message. -/
def terse : List (String × Document) := [("details", .list [.string "DISABLED"]),
  ("x", .object []), ("code", .string "Unavailable")]

def terseText : List UInt8 := Text.Utf8.bytes
  "\x7b\"details\":[\"DISABLED\"],\"x\":\x7b\x7d,\n\"code\":\"Unavailable\"\x7d"

def terseDetails : List UInt8 := Text.Utf8.bytes "[\"DISABLED\"]"

theorem spelled_terse : Spelled (.object terse) terseText := by
  have hdetails : SpellsText "details".toList _ := .of_plain (by decide)
  have hdisabled : SpellsText "DISABLED".toList _ := .of_plain (by decide)
  have hlist : Spells (.value (.list [.string "DISABLED"])) _ :=
    .list (.items blank_nil (.string hdisabled) (.lastItem blank_nil))
  have hx : SpellsText "x".toList _ := .of_plain (by decide)
  have hcode : SpellsText "code".toList _ := .of_plain (by decide)
  have hunavailable : SpellsText "Unavailable".toList _ := .of_plain (by decide)
  have hline : Blank [0x0A] := by decide
  have hmembers := Spells.members blank_nil (.member hdetails blank_nil blank_nil hlist)
    (.nextMember blank_nil (.members blank_nil
      (.member hx blank_nil blank_nil (.emptyObject blank_nil))
      (.nextMember blank_nil (.members hline
        (.member hcode blank_nil blank_nil (.string hunavailable)) (.lastMember blank_nil)))))
  exact ⟨[], _, [], blank_nil, .object hmembers, blank_nil, by decide⟩

theorem spelled_terseDetails : Spelled (.list [.string "DISABLED"]) terseDetails := by
  have hdisabled : SpellsText "DISABLED".toList _ := .of_plain (by decide)
  exact ⟨[], _, [], blank_nil, .list (.items blank_nil (.string hdisabled) (.lastItem blank_nil)),
    blank_nil, by decide⟩

theorem ofJson_details_terse :
    ofJson terseText = .ok ⟨.unavailable, "", some ⟨.disabled, ""⟩⟩ ∧
      ofParts .unavailable "" terseDetails = .quiet ⟨.unavailable, "", some ⟨.disabled, ""⟩⟩ := by
  have hp : Payload.ofBytes terseDetails = .ok (some ⟨.disabled, ""⟩) :=
    (Payload.ofBytes_eq_some_iff spelled_terseDetails _).mpr (.tag (Or.inl rfl))
  have hd := (ofJson_details spelled_terse (c := .unavailable) rfl (Or.inl ⟨rfl, rfl⟩)).2.1
    _ _ rfl spelled_terseDetails _ hp
  exact ⟨hd.1, hd.2.1⟩

end Status
end FaultCodec
