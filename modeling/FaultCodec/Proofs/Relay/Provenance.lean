import FaultCodec.Proofs.Relay

/-!
# The provenance of kinds and reasons

Whatever is cut off or replaced on the way, a hop either keeps the kind, lets it fall to an internal
fault, or takes one that somebody has offered: a wrap, or a payload that fits the code. The one kind
that a hop makes up is that too many requests, answered over HTTP, come back as rate limited.
-/

namespace FaultCodec

theorem Http.Status.kind_ofKind (k : Kind) :
    (ofKind k).kind = k ∨ (ofKind k).kind = .internal ∨
      k = .tooManyRequests ∧ (ofKind k).kind = .rateLimited := by
  cases k <;> simp [ofKind, Status.kind]

namespace Relay

/-- Where the kind behind a hop comes from, given the kind before the hop. -/
inductive Lineage (before : Kind) : Hop → Kind → Prop
  | kept (hop : Hop) : Lineage before hop before
  | fallen (hop : Hop) : Lineage before hop .internal
  | wrapped (kind : Kind) (text : String) : Lineage before (.wrap kind text) kind
  | grafted {p : Payload} : p.kind.code = before.code →
    Lineage before (.graftPayload (some p)) p.kind
  | limited : before = .tooManyRequests → Lineage before .http .rateLimited

/-- The kind that a hop offers in place of the one that it carries. -/
def Hop.offers? : Hop → Option Kind
  | wrap kind _ => some kind
  | graftPayload payload => payload.map Payload.kind
  | _ => none

theorem Arrives.lineage {f g : Fault} {hop : Hop} (h : Arrives f hop (some g)) :
    Lineage f.kind hop g.kind := by
  cases h with
  | kept _ => exact .kept hop
  | fallback _ _ => exact .fallen hop
  | answered =>
    rcases Http.Status.kind_ofKind f.kind with h | h | ⟨hk, h⟩
    · rw [Fault.kind_raise, h]
      exact .kept .http
    · rw [Fault.kind_raise, h]
      exact .fallen .http
    · rw [Fault.kind_raise, h]
      exact .limited hk
  | wrapped kind text => exact .wrapped kind text
  | grafted hc => exact .grafted hc

theorem lineage_take {f g : Fault} {hop : Hop} (h : (hop.take f).arrived? = some g) :
    Lineage f.kind hop g.kind := by
  have ha := arrives_take f hop
  rw [h] at ha
  exact ha.lineage

/-- One hop does not make up a reason. -/
theorem Lineage.requiresProxyRequest {before : Kind} {hop : Hop} {r : String}
    (h : Lineage before hop (.requiresProxyRequest r)) :
    before = .requiresProxyRequest r ∨ hop.offers? = some (.requiresProxyRequest r) := by
  -- the lineage of a grafted kind is indexed by `p.kind`, which no constructor of kinds matches
  generalize hk : Kind.requiresProxyRequest r = kind at h
  cases h with
  | kept _ => exact Or.inl rfl
  | fallen _ => cases hk
  | wrapped kind text => exact Or.inr rfl
  | grafted _ => exact Or.inr rfl
  | limited _ => cases hk

theorem final_eq_none_iff (f : Fault) (hops : List Hop) :
    final f hops = none ↔ .graftCode .ok ∈ hops := by
  induction hops generalizing f with
  | nil => simp
  | cons hop hops ih =>
    rw [final_cons, List.mem_cons]
    cases ha : (hop.take f).arrived? with
    | none =>
      have hhop := (arrived?_eq_none_iff f hop).mp ha
      simp [hhop]
    | some g =>
      have hne : .graftCode .ok ≠ hop := by
        rintro rfl
        simp [(arrived?_eq_none_iff f _).mpr rfl] at ha
      rw [Option.bind_some, ih g]
      simp [hne]

theorem requiresProxyRequest_final {f g : Fault} {hops : List Hop} {r : String}
    (hg : final f hops = some g) (hr : g.kind = .requiresProxyRequest r) :
    f.kind = .requiresProxyRequest r ∨
      ∃ hop ∈ hops, hop.offers? = some (.requiresProxyRequest r) := by
  induction hops generalizing f with
  | nil =>
    cases hg
    exact Or.inl hr
  | cons hop hops ih =>
    obtain ⟨e, he, hg⟩ := Option.bind_eq_some_iff.mp hg
    rcases ih hg with hk | ⟨later, hm, ho⟩
    · have hl := lineage_take he
      rw [hk] at hl
      rcases hl.requiresProxyRequest with hf | ho
      · exact Or.inl hf
      · exact Or.inr ⟨hop, List.mem_cons_self, ho⟩
    · exact Or.inr ⟨later, List.mem_cons_of_mem _ hm, ho⟩

/-- A run ends without a fault only at a code of success; every other hop delivers a fault whose
kind has a lineage; and the reason at the end of a run was there at its start or offered on the
way. -/
theorem kinds_not_fabricated (f : Fault) (hops : List Hop) :
    (final f hops = none ↔ .graftCode .ok ∈ hops) ∧
      (∀ before hop later e, hops = before ++ hop :: later → final f before = some e →
        hop ≠ .graftCode .ok →
        ∃ g, final f (before ++ [hop]) = some g ∧ Lineage e.kind hop g.kind) ∧
      ∀ g r, final f hops = some g → g.kind = .requiresProxyRequest r →
        f.kind = .requiresProxyRequest r ∨
          ∃ hop ∈ hops, hop.offers? = some (.requiresProxyRequest r) := by
  refine ⟨final_eq_none_iff f hops, ?_, ?_⟩
  · rintro before hop later e rfl he hne
    rw [final_concat he]
    cases ha : (hop.take e).arrived? with
    | none => exact absurd ((arrived?_eq_none_iff e hop).mp ha) hne
    | some g => exact ⟨g, rfl, lineage_take ha⟩
  · intro g r hg hr
    exact requiresProxyRequest_final hg hr

end Relay
end FaultCodec
