import FaultCodec.Proofs.Fault
import FaultCodec.Proofs.Status.Transport

/-!
# Equivalent faults on the wire

Faults are equivalent exactly where no peer can tell them apart: where they are encoded as the same
status, as the same JSON text or as the same trailers. No form of a status is shared by two
statuses, since each is read back; and a status holds the kind of its fault in full, since the
payload names it.
-/

namespace FaultCodec

theorem Payload.ofKind_injective : Function.Injective ofKind := by
  intro a b h
  rw [← kind_ofKind a, ← kind_ofKind b, h]

namespace Status

theorem ofFault_eq_iff (a b : Fault) : ofFault a = ofFault b ↔ a ≈ b := by
  constructor
  · intro h
    have hp : some (Payload.ofKind a.kind) = some (Payload.ofKind b.kind) :=
      congrArg payload h
    have hm : a.message = b.message := congrArg message h
    exact ⟨Payload.ofKind_injective (Option.some.inj hp), hm⟩
  · rintro ⟨hk, hm⟩
    simp only [ofFault, Fault.code, hk, hm]

theorem render_toJson_injective : Function.Injective fun s : Status => s.toJson.render := by
  intro s t h
  have hb : s.toJson.bytes = t.toJson.bytes := congrArg Text.Utf8.bytes h
  have hj : (.ok s : Except Json.Error Status) = .ok t := by
    rw [← ofJson_toJson s, ← ofJson_toJson t, hb]
  exact Except.ok.inj hj

theorem trailers_injective : Function.Injective Trailers.ofStatus := by
  intro s t h
  have hq : Log.Logged.quiet s = Log.Logged.quiet t := by
    rw [← status_ofStatus s, ← status_ofStatus t, h]
  exact congrArg Log.Logged.value hq

/-- Equivalence of faults is what their statuses, the JSON texts of these and their trailers agree
on, and it is kept when both faults are wrapped in the same way. -/
theorem equiv_iff_indistinguishable (a b : Fault) :
    (a ≈ b ↔ ofFault a = ofFault b) ∧
      (a ≈ b ↔ (ofFault a).toJson.render = (ofFault b).toJson.render) ∧
      (a ≈ b ↔ Trailers.ofFault a = Trailers.ofFault b) ∧
      (a ≈ b → ∀ kind text, (Fault.raise kind text).withCause (.fault a) ≈
        (Fault.raise kind text).withCause (.fault b)) := by
  have hs : a ≈ b ↔ ofFault a = ofFault b := (ofFault_eq_iff a b).symm
  refine ⟨hs, ?_, ?_, ?_⟩
  · rw [hs]
    exact render_toJson_injective.eq_iff.symm
  · rw [hs]
    exact trailers_injective.eq_iff.symm
  · intro h kind text
    exact Fault.withCause_equiv _ h

end Status
end FaultCodec
