import FaultCodec.Proofs.Status.Decoding

/-!
# Canonical statuses

The canonical statuses are the statuses of faults. Decoding a status and encoding its fault again
gives a canonical one, which is the same status only if that was canonical already, and from then on
nothing changes any more.
-/

namespace FaultCodec

/-- A payload describes its kind in full unless it has a reason that the kind does not keep. -/
theorem Payload.ofKind_kind_iff (p : Payload) :
    ofKind p.kind = p ↔ p.reason = "" ∨ p.tag = .requiresProxyRequest := by
  obtain ⟨tag, reason⟩ := p
  cases tag <;> simp [ofKind, kind, Tag.kind, Kind.tag, Kind.reason?, eq_comm]

namespace Status

@[simp] theorem ofFault_rendered (k : Kind) (m : String) :
    ofFault (.rendered k m) = ⟨k.code, m, some (Payload.ofKind k)⟩ := rfl

theorem isCanonical_iff (s : Status) :
    s.IsCanonical ↔
      ∃ p, s.payload = some p ∧ p.kind.code = s.code ∧ Payload.ofKind p.kind = p := by
  constructor
  · rintro ⟨p, hp, hc, hr⟩
    exact ⟨p, hp, p.code_kind.trans hc, p.ofKind_kind_iff.mpr hr⟩
  · rintro ⟨p, hp, hc, hr⟩
    exact ⟨p, hp, p.code_kind.symm.trans hc, p.ofKind_kind_iff.mp hr⟩

theorem isCanonical_ofFault (f : Fault) : (ofFault f).IsCanonical := by
  rw [isCanonical_iff]
  refine ⟨Payload.ofKind f.kind, rfl, ?_, ?_⟩
  · rw [Payload.kind_ofKind]
    rfl
  · rw [Payload.kind_ofKind]

theorem IsCanonical.code_ne_ok {s : Status} (h : s.IsCanonical) : s.code ≠ .ok := by
  obtain ⟨p, _, hc, _⟩ := s.isCanonical_iff.mp h
  rw [← hc]
  exact p.kind.code_ne_ok

theorem IsCanonical.ofFault_decode {s : Status} (h : s.IsCanonical) {f : Fault}
    (hf : s.decode.value = some f) : ofFault f = s := by
  obtain ⟨p, hp, hc, hk⟩ := s.isCanonical_iff.mp h
  rw [decode_of_fits hp hc] at hf
  cases hf
  rw [ofFault_rendered, hk, hc, ← hp]

theorem exists_decode {s : Status} (h : s.code ≠ .ok) : ∃ f, s.decode.value = some f :=
  Option.ne_none_iff_exists'.mp fun hn => h (s.value_decode_eq_none_iff.mp hn)

theorem isCanonical_iff_exists_ofFault (s : Status) : s.IsCanonical ↔ ∃ f, ofFault f = s := by
  constructor
  · intro h
    obtain ⟨f, hf⟩ := exists_decode h.code_ne_ok
    exact ⟨f, h.ofFault_decode hf⟩
  · rintro ⟨f, rfl⟩
    exact isCanonical_ofFault f

theorem message_of_decode {s : Status} {f : Fault} (hf : s.decode.value = some f) :
    f.message = if s.usablePayload?.isSome then s.message else s.fallbackMessage := by
  cases hu : s.usablePayload? with
  | some p =>
    obtain ⟨hp, hc⟩ := (s.usablePayload?_eq_some_iff p).mp hu
    rw [decode_of_fits hp hc] at hf
    cases hf
    rfl
  | none =>
    have hs : s.code ≠ .ok := by
      intro hs
      simp [s.value_decode_eq_none_iff.mpr hs] at hf
    rw [decode_of_unfit hs (s.usablePayload?_eq_none_iff.mp hu)] at hf
    cases hf
    rfl

/-- A fault that has been encoded is decoded to an equivalent one, which is encoded in the same
way. -/
theorem decode_ofFault_equiv (f : Fault) :
    ∃ g, (ofFault f).decode.value = some g ∧ g ≈ f ∧ ofFault g = ofFault f := by
  refine ⟨.rendered f.kind f.message, ?_, ⟨rfl, rfl⟩, rfl⟩
  rw [decode_ofFault, Log.Logged.value_quiet]

/-- Encoding what a status is decoded to makes the status canonical, keeps the message that was
decoded, and changes nothing when it is done again or when the status is canonical. Canonical are
the statuses of faults, and no others. -/
theorem ofFault_decode_normal :
    (∀ s : Status, s.code ≠ .ok → ∃ f, s.decode.value = some f ∧
      (ofFault f).IsCanonical ∧
      (ofFault f).message = f.message ∧
      (f.message = if s.usablePayload?.isSome then s.message else s.fallbackMessage) ∧
      (∃ g, (ofFault f).decode.value = some g ∧ g ≈ f ∧ ofFault g = ofFault f) ∧
      (ofFault f = s ↔ s.IsCanonical)) ∧
    (∀ s : Status, s.IsCanonical → s.code ≠ .ok) ∧
    ∀ s : Status, s.IsCanonical ↔ ∃ f, ofFault f = s := by
  refine ⟨?_, fun _ h => h.code_ne_ok, isCanonical_iff_exists_ofFault⟩
  intro s hs
  obtain ⟨f, hf⟩ := exists_decode hs
  refine ⟨f, hf, isCanonical_ofFault f, rfl, message_of_decode hf, decode_ofFault_equiv f, ?_⟩
  constructor
  · rintro rfl
    exact isCanonical_ofFault f
  · intro h
    exact h.ofFault_decode hf

end Status
end FaultCodec
