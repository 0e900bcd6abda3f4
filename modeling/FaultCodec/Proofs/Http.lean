import FaultCodec.Http
import FaultCodec.Proofs.Text.Ends

/-!
# What HTTP answers report

Informational answers, success and redirection are no faults. Of the other statuses a few have a
kind of their own, and the rest stand for internal faults. That is what is reported up to the last
of the server errors, and blanks around the body make no difference. The statuses from 600 on, which
belong to no class, are passed over as if they were a success.
-/

namespace FaultCodec
namespace Http
namespace Status

open Text (isBlankText trim trim_between_blank trim_eq_empty_iff)

/-- The statuses that have a kind of their own. -/
def ownKinds : List (Nat × Kind) := [
  (400, .badRequest), (409, .conflict), (422, .unprocessableEntity), (429, .rateLimited),
  (501, .unimplemented)]

/-- The fault is raised for the status, with the body in its text unless that is blank. -/
structure Reports (s : Status) (body : String) (f : Fault) : Prop where
  kind : f.kind = (ownKinds.lookup s.number).getD .internal
  text : f.label.text = if isBlankText body = true then s.line else s.line ++ ": " ++ trim body
  wording : f.label.wording = .raised
  cause : f.cause? = none

/-- An answer is classified if it is no fault below the client errors and is reported as one
above. -/
def Classified (s : Status) (body : String) : Prop :=
  if s.number < 400 then s.fault? body = none else ∃ f, s.fault? body = some f ∧ s.Reports body f

theorem isFault_iff (s : Status) : s.isFault = true ↔ 400 ≤ s.number ∧ s.number < 600 := by
  simp only [isFault, Bool.and_eq_true, decide_eq_true_eq]
  omega

theorem kind_eq_lookup (s : Status) : s.kind = (ownKinds.lookup s.number).getD .internal := by
  unfold kind
  split
  · next h => rw [h]; rfl
  · next h => rw [h]; rfl
  · next h => rw [h]; rfl
  · next h => rw [h]; rfl
  · next h => rw [h]; rfl
  · next h₁ h₂ h₃ h₄ h₅ =>
    have hn : ownKinds.lookup s.number = none := by
      rw [List.lookup_eq_none_iff]
      simpa [ownKinds] using ⟨h₁, h₂, h₃, h₄, h₅⟩
    rw [hn]
    rfl

theorem text_eq (s : Status) (body : String) :
    s.text body = if isBlankText body = true then s.line else s.line ++ ": " ++ trim body := by
  simp only [text, trim_eq_empty_iff]

theorem reports_raise (s : Status) (body : String) :
    s.Reports body (.raise s.kind (s.text body)) where
  kind := s.kind_eq_lookup
  text := by
    rw [← s.text_eq body]
    generalize s.text body = text
    rfl
  wording := rfl
  cause := rfl

theorem fault?_between_blank (s : Status) {before after : String} (hb : isBlankText before = true)
    (ha : isBlankText after = true) (body : String) :
    s.fault? (before ++ body ++ after) = s.fault? body := by
  simp only [fault?, text, trim_between_blank hb ha]

/-- Just the answers below 600 are classified, and bodies that differ in the blanks around them are
answered alike. -/
theorem classified_iff_number_lt (s : Status) (body : String) :
    (s.Classified body ↔ s.number < 600) ∧
      ∀ before after, isBlankText before = true → isBlankText after = true →
        s.fault? (before ++ body ++ after) = s.fault? body := by
  refine ⟨?_, fun before after hb ha => s.fault?_between_blank hb ha body⟩
  unfold Classified
  split_ifs with hn
  · have hf : s.isFault = false := by
      rw [← Bool.not_eq_true, isFault_iff]
      omega
    have hlt : s.number < 600 := by omega
    simp [(s.fault?_eq_none_iff body).mpr hf, hlt]
  · constructor
    · rintro ⟨f, hf, _⟩
      have hs : s.isFault = true := by
        rw [← Bool.not_eq_false, ← s.fault?_eq_none_iff body, hf]
        nofun
      exact (s.isFault_iff.mp hs).2
    · intro hlt
      have hs : s.isFault = true := s.isFault_iff.mpr ⟨Nat.not_lt.mp hn, hlt⟩
      refine ⟨_, ?_, s.reports_raise body⟩
      rw [fault?, if_pos hs]

/-- The first status behind the server errors is passed over, whatever the server has to say. -/
theorem not_classified_600 : ¬ Classified ⟨600, by decide⟩ "upstream failed" := by
  rintro ⟨f, hf, _⟩
  cases hf

end Status
end Http
end FaultCodec
