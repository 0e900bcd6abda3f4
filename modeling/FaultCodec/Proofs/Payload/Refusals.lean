import FaultCodec.Proofs.Json.Traced
import FaultCodec.Proofs.Payload

/-!
# Why bytes are not those of a payload

The diagnostic of bytes that are refused takes one line, whatever they are, unless they name a tag
that there is none of. The name is then shown as it is, and it may hold any line feeds.
-/

namespace FaultCodec
namespace Payload

open Json
open Log (IsLine lineFeeds)

variable {bytes : List UInt8} {e : Json.Error} {name : String}

/-- The bytes are not those of a payload. -/
def Malformed (bytes : List UInt8) : Prop := ∀ p, parse read bytes ≠ .ok p

/-- The bytes are refused since they give the name for a tag, and it is the one of no tag. -/
def Misnames (bytes : List UInt8) (name : String) : Prop :=
  ∃ left, parse read bytes = .error ⟨.mismatch (.unknownChoice name (Tag.all.map Tag.text)), left⟩

theorem ofBytes_eq_error_iff :
    ofBytes bytes = .error e ↔ bytes ≠ [] ∧ parse read bytes = .error e := by
  by_cases hb : bytes = []
  · subst hb
    simp
  · cases hp : parse read bytes with
    | error e => simp [ofBytes, hb, hp, Except.map]
    | ok p => simp [ofBytes, hb, hp, Except.map]

theorem not_malformed_of_ofBytes {o : Option Payload} (h : ofBytes bytes = .ok o) :
    ¬(bytes ≠ [] ∧ Malformed bytes) := by
  rintro ⟨hb, hm⟩
  cases hp : parse read bytes with
  | error e => cases (ofBytes_eq_error_iff.mpr ⟨hb, hp⟩).symm.trans h
  | ok p => exact hm p hp

theorem isTraced_record : record.IsTraced (Tag.all.map Tag.text) where
  title := show IsLine "struct ErrorDetails" by decide
  name := by
    intro f hf
    simp only [record, List.mem_cons, List.not_mem_nil, or_false] at hf
    rcases hf with rfl | rfl
    · exact show IsLine "subtype" by decide
    · exact show IsLine "reason" by decide
  read := by
    intro f hf d
    have htag : Traceable (Tag.all.map Tag.text) readTag :=
      traceable_readChoice (Tag.all.map fun t : Tag => (t.text, t))
    simp only [record, List.mem_cons, List.not_mem_nil, or_false] at hf
    rcases hf with rfl | rfl
    · exact htag.into fun t => ({ d with tag := some t } : Draft)
    · exact traceable_readText.into fun r => ({ d with reason := some r } : Draft)
  finish := by
    intro d name h
    obtain ⟨tag, reason⟩ := d
    cases tag with
    | none =>
      cases h
      exact show IsLine "subtype" by decide
    | some t => cases h

theorem reported (h : parse read bytes = .error e) :
    Reported (Tag.all.map Tag.text) bytes e.problem :=
  isTraced_record.traceable_read.reported h

/-- The name is the one of no tag, and it stands in the bytes as a string. -/
theorem Misnames.holdsString (h : Misnames bytes name) :
    name ∉ Tag.all.map Tag.text ∧ HoldsString bytes name := by
  obtain ⟨left, he⟩ := h
  cases reported he with
  | plain _ hp => exact absurd rfl (hp _ _)
  | unknown hs hn => exact ⟨hn, hs⟩

theorem Misnames.malformed (h : Misnames bytes name) : bytes ≠ [] ∧ Malformed bytes := by
  obtain ⟨left, he⟩ := h
  constructor
  · rintro rfl
    cases he
  · intro p hp
    cases he.symm.trans hp

theorem isLine_of_not_misnames (h : parse read bytes = .error e)
    (hm : ∀ name, ¬Misnames bytes name) : IsLine e.problem.message := by
  obtain ⟨p, left⟩ := e
  cases reported h with
  | plain hl => exact hl
  | @unknown name => exact absurd ⟨left, h⟩ (hm name)

theorem Misnames.lineFeeds_message (h : Misnames bytes name) (he : parse read bytes = .error e) :
    lineFeeds e.problem.message = lineFeeds name := by
  obtain ⟨left, hp⟩ := h
  cases hp.symm.trans he
  apply Mismatch.lineFeeds_unknownChoice
  intro c hc
  obtain ⟨t, _, rfl⟩ := List.mem_map.mp hc
  cases t <;> decide

/-! ## Any other name -/

theorem readTag_of_not_mem (h : name ∉ Tag.all.map Tag.text) (rest : List UInt8) :
    readTag ((Value.string name).bytes ++ rest) =
      failAt (.mismatch (.unknownChoice name (Tag.all.map Tag.text))) rest := by
  have hl : (Tag.all.map fun t => (t.text, t)).lookup name = none := by
    rw [List.lookup_eq_none_iff]
    intro c hc
    obtain ⟨t, ht, rfl⟩ := List.mem_map.mp hc
    rw [bne_iff_ne]
    rintro rfl
    exact h (List.mem_map_of_mem ht)
  rw [bytes_string]
  change readNamed _ (stringTail name ++ rest) = _
  simp [readNamed, choose, hl, bind, Except.bind, Function.comp_def]

theorem readMember_of_not_mem (h : name ∉ Tag.all.map Tag.text) (rest : List UInt8) :
    record.readMember {} "subtype" (Byte.colon :: ((Value.string name).bytes ++ rest)) =
      failAt (.mismatch (.unknownChoice name (Tag.all.map Tag.text))) rest := by
  have hf : record.fields.find? (·.name = "subtype") = some record.fields[0] := rfl
  exact Record.readMember_of_error hf rfl (readTag_of_not_mem h rest)

/-- Every name that is the one of no tag can be given for a tag. -/
theorem misnames_object (h : name ∉ Tag.all.map Tag.text) :
    Misnames (Value.object [("subtype", .string name)]).bytes name := by
  refine ⟨1, ?_⟩
  rw [parse, read, Record.read_object_of_error (readMember_of_not_mem h [Byte.closeBrace])]
  rfl

end Payload
end FaultCodec
