import FaultCodec.Proofs.Fault
import FaultCodec.Proofs.Relay

/-!
# Transparent relays

Transports that change nothing leave no trace in a run: between faults that are wrapped on the way,
a fault that was relayed cannot be told from one that was not. A relayed fault has lost its cause,
but not the text of it, and that text is all that wrapping looks at.
-/

namespace FaultCodec
namespace Relay
namespace Hop

/-- The transports that carry all of a status. -/
def isTransport : Hop → Bool
  | status | parts none | json | trailers => true
  | _ => false

def isWrap : Hop → Bool
  | wrap _ _ => true
  | _ => false

theorem arrived_of_isTransport (f : Fault) {hop : Hop} (h : hop.isTransport = true) :
    (hop.take f).arrived = .quiet (some (.rendered f.kind f.message)) := by
  rw [← Status.decode_ofFault]
  cases hop with
  | status => rfl
  | parts keep =>
    cases keep with
    | none => exact arrived_parts_none f
    | some n => cases h
  | json => exact arrived_json f
  | trailers => exact arrived_trailers f
  | http | wrap | graftCode | graftPayload => cases h

theorem arrived?_of_isTransport (f : Fault) {hop : Hop} (h : hop.isTransport = true) :
    (hop.take f).arrived? = some (.rendered f.kind f.message) := by
  rw [Passage.arrived?, arrived_of_isTransport f h, Log.Logged.value_quiet]

theorem not_isWrap {hop : Hop} (h : hop.isTransport = true) : hop.isWrap = false := by
  cases hop with
  | wrap => cases h
  | _ => rfl

end Hop

/-- A run over transports and wraps, beside the run over its wraps alone. The two faults are
equivalent at every step, which is what a wrap needs of its causes. -/
theorem final_equiv {f g : Fault} {hops : List Hop} (hfg : f ≈ g)
    (h : ∀ hop ∈ hops, hop.isTransport = true ∨ hop.isWrap = true) :
    ∃ a b, final f hops = some a ∧ final g (hops.filter Hop.isWrap) = some b ∧ a ≈ b := by
  induction hops generalizing f g with
  | nil => exact ⟨f, g, rfl, rfl, hfg⟩
  | cons hop hops ih =>
    have hrest : ∀ hop ∈ hops, hop.isTransport = true ∨ hop.isWrap = true :=
      fun hop hm => h hop (List.mem_cons_of_mem _ hm)
    rcases h hop List.mem_cons_self with ht | hw
    · have hs : (hop :: hops).filter Hop.isWrap = hops.filter Hop.isWrap :=
        List.filter_cons_of_neg (by simp [Hop.not_isWrap ht])
      rw [final_cons, Hop.arrived?_of_isTransport f ht, hs]
      exact ih (Setoid.trans f.rendered_equiv hfg) hrest
    · cases hop with
      | wrap kind text => exact ih (Fault.withCause_equiv _ hfg) hrest
      | _ => cases hw

theorem final_transports (f : Fault) {hops : List Hop}
    (h : ∀ hop ∈ hops, hop.isTransport = true) : ∃ g, final f hops = some g ∧ g ≈ f := by
  obtain ⟨g, e, hg, he, hge⟩ := final_equiv (Setoid.refl f) fun hop hm => Or.inl (h hop hm)
  have hw : hops.filter Hop.isWrap = [] := by
    rw [List.filter_eq_nil_iff]
    intro hop hm
    simp [Hop.not_isWrap (h hop hm)]
  rw [hw] at he
  cases he
  exact ⟨g, hg, hge⟩

/-- The transports of a run can be left out, and each of them quietly delivers a fault without a
cause that is equivalent to the one that was sent. -/
theorem run_transparent (f : Fault) {hops : List Hop}
    (h : ∀ hop ∈ hops, hop.isTransport = true ∨ hop.isWrap = true) :
    (∃ a b, final f hops = some a ∧ final f (hops.filter Hop.isWrap) = some b ∧ a ≈ b) ∧
      ∀ before hop later, hops = before ++ hop :: later → hop.isTransport = true →
        ∃ e a, final f before = some e ∧
          (run f hops)[before.length]? = some (hop.take e) ∧
          (hop.take e).arrived = .quiet (some a) ∧ a.cause? = none ∧ a ≈ e := by
  refine ⟨final_equiv (Setoid.refl f) h, ?_⟩
  rintro before hop later rfl ht
  have hb : ∀ hop ∈ before, hop.isTransport = true ∨ hop.isWrap = true :=
    fun hop hm => h hop (List.mem_append_left _ hm)
  obtain ⟨e, _, he, _⟩ := final_equiv (Setoid.refl f) hb
  exact ⟨e, _, he, getElem?_run he hop later, Hop.arrived_of_isTransport e ht, rfl,
    e.rendered_equiv⟩

/-- A chain of faults with quotes, a line feed and a null character in its texts. -/
def disputed : Fault :=
  .chained ⟨.requiresProxyRequest "say \"no\"\x00", "", .raised⟩
    (.foreign ⟨.conflict, "in\nuse", .rendered⟩ "io")

/-- Two wraps among four transports. -/
def detour : List Hop :=
  [.json, .wrap .tooManyRequests "slow", .trailers, .parts none,
    .wrap (.requiresProxyRequest "😀\\") "", .status]

theorem run_transparent_disputed :
    (∀ hop ∈ detour, hop.isTransport = true ∨ hop.isWrap = true) ∧
      ∃ a, final disputed detour = some a ∧ a.kind = .requiresProxyRequest "😀\\" ∧
        a.message =
          "wire:NotFound: : wire:ResourceExhausted: slow: wire:NotFound: : in\nuse" := by
  have h : ∀ hop ∈ detour, hop.isTransport = true ∨ hop.isWrap = true := by decide
  refine ⟨h, ?_⟩
  obtain ⟨⟨a, b, ha, hb, hk, hm⟩, _⟩ := run_transparent disputed h
  cases hb
  refine ⟨a, ha, hk, ?_⟩
  rw [hm]
  decide

end Relay
end FaultCodec
