import FaultCodec.Proofs.Fault
import FaultCodec.Proofs.Status.Decoding
import FaultCodec.Proofs.Text.Ends

/-!
# Causes on the wire

A cause that is attached to a fault raised here stands at the end of its message, and so of its
status and of the fault that is decoded from that. A fault that was rebuilt from a message repeats
this message alone: a cause that is attached to it is kept for inspection and does not reach the
wire.
-/

namespace FaultCodec

open Text (EndsWith endsWith_append)

namespace Fault

/-- The cause is shown if it stands at the end of the message of the fault, of its status, and of
the fault that is decoded from the status and has no cause itself. -/
structure Shows (f : Fault) (c : Cause) : Prop where
  message : EndsWith (f.withCause c).message (": " ++ c.text)
  status : EndsWith (Status.ofFault (f.withCause c)).message (": " ++ c.text)
  decoded : ∃ g, (Status.ofFault (f.withCause c)).decode = .quiet (some g) ∧ g.cause? = none ∧
    EndsWith g.message (": " ++ c.text)

/-- A status carries the message as it is, so the end of the message alone counts. -/
theorem shows_iff_endsWith_message (f : Fault) (c : Cause) :
    f.Shows c ↔ EndsWith (f.withCause c).message (": " ++ c.text) := by
  constructor
  · exact Shows.message
  · intro h
    exact ⟨h, h, _, Status.decode_ofFault _, rfl, h⟩

/-- A cause is shown by every fault that was raised here. A fault that repeats a message shows it
only if the message happens to end with it. -/
theorem shows_cause_iff (f : Fault) (c : Cause) :
    f.Shows c ↔ f.label.wording = .raised ∨ EndsWith f.label.text (": " ++ c.text) := by
  rw [shows_iff_endsWith_message, message_withCause]
  cases hw : f.label.wording with
  | raised =>
    have hb : f.label.before c.text = f.label.heading ++ (": " ++ c.text) := by
      simp only [Label.before, hw, String.append_assoc]
    rw [hb]
    exact iff_of_true (endsWith_append _ _) (Or.inl rfl)
  | rendered => simp [Label.before, hw]

/-- A fault that has been decoded does not show a cause that is attached to it. -/
theorem not_shows_cause_decoded : ∃ f,
    (Status.decode ⟨.aborted, "wire:Aborted: in use", some ⟨.conflict, ""⟩⟩).value = some f ∧
      ¬f.Shows (.foreign "disk full") := by
  refine ⟨_, rfl, ?_⟩
  rintro ⟨h, _, _⟩
  exact absurd h (by decide)

end Fault
end FaultCodec
