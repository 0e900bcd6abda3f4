import FaultCodec.Proofs.Status.Decoding
import FaultCodec.Proofs.Status.Transport
import FaultCodec.Relay

/-!
# Hops and runs

What may arrive over one hop, and how a run is put together of its hops. Facts about whole runs
follow from these by induction on the hops.
-/

namespace FaultCodec
namespace Relay

/-- What may arrive when a fault takes a hop. Only a code of success makes nothing arrive; a
fallback is one for the message of the fault, under whatever code. -/
inductive Arrives (f : Fault) : Hop → Option Fault → Prop
  | lost : Arrives f (.graftCode .ok) none
  | kept {hop : Hop} : hop ≠ .graftCode .ok → Arrives f hop (some (.rendered f.kind f.message))
  | fallback {hop : Hop} {s : Status} : hop ≠ .graftCode .ok → s.message = f.message →
      Arrives f hop (some s.fallback)
  | answered : Arrives f .http (some (.raise (Http.Status.ofKind f.kind).kind
      ((Http.Status.ofKind f.kind).text f.message)))
  | wrapped (kind : Kind) (text : String) : Arrives f (.wrap kind text)
      (some ((Fault.raise kind text).withCause (.fault f)))
  | grafted {p : Payload} : p.kind.code = f.code →
      Arrives f (.graftPayload (some p)) (some (.rendered p.kind f.message))

/-- A status with the message of the fault either fits its payload or falls back. -/
theorem arrives_decode {f : Fault} {hop : Hop} {s : Status} (hne : hop ≠ .graftCode .ok)
    (hs : s.code ≠ .ok) (hm : s.message = f.message)
    (hp : ∀ p, s.payload = some p → p.kind.code = s.code →
      Arrives f hop (some (.rendered p.kind f.message))) :
    Arrives f hop s.decode.value := by
  rcases s.decode_cases with ⟨h, _⟩ | ⟨p, h, hc, hd⟩ | ⟨_, hd⟩
  · exact absurd h hs
  · rw [hd, hm]
    exact hp p h hc
  · rw [hd]
    exact .fallback hne hm

/-- A status that still has the payload of the fault, or none, cannot tell of another kind. -/
theorem arrives_decode_ofFault {f : Fault} {hop : Hop} {s : Status} (hne : hop ≠ .graftCode .ok)
    (hs : s.code ≠ .ok) (hm : s.message = f.message)
    (hp : ∀ p, s.payload = some p → p = Payload.ofKind f.kind) :
    Arrives f hop s.decode.value := by
  apply arrives_decode hne hs hm
  intro p h _
  rw [hp p h, Payload.kind_ofKind]
  exact .kept hne

/-- Cut bytes may cost a fault its payload, nothing else. -/
theorem value_ofParts_take (f : Fault) (n : Nat) :
    ∃ payload, (∀ p, payload = some p → p = Payload.ofKind f.kind) ∧
      (Status.ofParts f.code f.message ((Status.ofFault f).payloadBytes.take n)).value =
        ⟨f.code, f.message, payload⟩ := by
  have hb : (Status.ofFault f).payloadBytes = (Payload.ofKind f.kind).bytes := rfl
  rw [hb]
  have hnone : ∀ p, (none : Option Payload) = some p → p = Payload.ofKind f.kind := by
    intro p hp
    cases hp
  rcases (Payload.ofKind f.kind).ofBytes_take n with h | h | ⟨e, h⟩
  · refine ⟨some (Payload.ofKind f.kind), ?_, ?_⟩
    · intro p hp
      exact (Option.some.inj hp).symm
    · simp only [Status.ofParts, h, Log.Logged.value_quiet]
  · refine ⟨none, hnone, ?_⟩
    simp only [Status.ofParts, h, Log.Logged.value_quiet]
  · refine ⟨none, hnone, ?_⟩
    simp only [Status.ofParts, h]

theorem Hop.arrived_parts_none (f : Fault) :
    ((Hop.parts none).take f).arrived = (Status.ofFault f).decode := by
  have h : Status.ofParts f.code f.message (Status.ofFault f).payloadBytes =
      .quiet (Status.ofFault f) := Status.ofParts_payloadBytes (Status.ofFault f)
  simp only [Hop.take, Hop.deliverParts, Status.code_ofFault, Status.message_ofFault, h,
    Log.Logged.bind_quiet]

theorem Hop.arrived_json (f : Fault) : (Hop.json.take f).arrived = (Status.ofFault f).decode := by
  simp only [Hop.take, Hop.deliverJson, Status.ofJson_toJson]

theorem Hop.arrived_trailers (f : Fault) :
    (Hop.trailers.take f).arrived = (Status.ofFault f).decode := by
  simp only [Hop.take, Hop.deliverTrailers, Trailers.ofFault, Trailers.decode,
    Status.status_ofStatus, Log.Logged.bind_quiet]

theorem arrives_parts (f : Fault) (keep : Option Nat) :
    Arrives f (.parts keep) ((Hop.parts keep).take f).arrived? := by
  cases keep with
  | none =>
    simp only [Passage.arrived?, Hop.arrived_parts_none, Status.decode_ofFault,
      Log.Logged.value_quiet]
    exact .kept nofun
  | some n =>
    obtain ⟨payload, hp, hv⟩ := value_ofParts_take f n
    simp only [Passage.arrived?, Hop.take, Hop.deliverParts, Log.Logged.value_bind,
      Status.code_ofFault, Status.message_ofFault, hv]
    exact arrives_decode_ofFault nofun f.kind.code_ne_ok rfl hp

theorem arrives_graftCode (f : Fault) (code : Code) :
    Arrives f (.graftCode code) ((Hop.graftCode code).take f).arrived? := by
  by_cases hc : code = .ok
  · subst hc
    exact .lost
  · have hne : Hop.graftCode code ≠ .graftCode .ok := fun h => hc (Hop.graftCode.inj h)
    apply arrives_decode_ofFault hne hc rfl
    intro p hp
    exact (Option.some.inj hp).symm

theorem arrives_graftPayload (f : Fault) (payload : Option Payload) :
    Arrives f (.graftPayload payload) ((Hop.graftPayload payload).take f).arrived? := by
  have hne : Hop.graftPayload payload ≠ .graftCode .ok := nofun
  apply arrives_decode hne f.kind.code_ne_ok rfl
  rintro p rfl hc
  exact .grafted hc

theorem arrived?_http (f : Fault) : (Hop.http.take f).arrived? = some (.raise
    (Http.Status.ofKind f.kind).kind ((Http.Status.ofKind f.kind).text f.message)) := by
  simp only [Passage.arrived?, Hop.take, Hop.deliverHttp, Log.Logged.value_quiet,
    Http.Status.fault?, Http.Status.isFault_ofKind, if_true]

theorem arrives_http (f : Fault) : Arrives f .http (Hop.http.take f).arrived? := by
  rw [arrived?_http]
  exact .answered

theorem arrives_take (f : Fault) (hop : Hop) : Arrives f hop (hop.take f).arrived? := by
  have hkept : ∀ hop : Hop, hop ≠ .graftCode .ok →
      (hop.take f).arrived = (Status.ofFault f).decode →
      Arrives f hop (hop.take f).arrived? := by
    intro hop hne ha
    simp only [Passage.arrived?, ha, Status.decode_ofFault, Log.Logged.value_quiet]
    exact .kept hne
  cases hop with
  | status => exact hkept _ nofun rfl
  | parts keep => exact arrives_parts f keep
  | json => exact hkept _ nofun (Hop.arrived_json f)
  | trailers => exact hkept _ nofun (Hop.arrived_trailers f)
  | http => exact arrives_http f
  | wrap kind text => exact .wrapped kind text
  | graftCode code => exact arrives_graftCode f code
  | graftPayload payload => exact arrives_graftPayload f payload

theorem arrived?_eq_none_iff (f : Fault) (hop : Hop) :
    (hop.take f).arrived? = none ↔ hop = .graftCode .ok := by
  constructor
  · intro h
    have ha := arrives_take f hop
    rw [h] at ha
    cases ha
    rfl
  · rintro rfl
    rfl

@[simp] theorem final_cons (f : Fault) (hop : Hop) (hops : List Hop) :
    final f (hop :: hops) = (hop.take f).arrived?.bind fun g => final g hops := rfl

theorem final_append (f : Fault) (hops later : List Hop) :
    final f (hops ++ later) = (final f hops).bind fun g => final g later := by
  induction hops generalizing f with
  | nil => rfl
  | cons hop hops ih =>
    rw [List.cons_append, final_cons, final_cons, Option.bind_assoc]
    simp only [ih]

theorem final_concat {f e : Fault} {hops : List Hop} (he : final f hops = some e) (hop : Hop) :
    final f (hops ++ [hop]) = (hop.take e).arrived? := by
  simp [final_append, he]

theorem getElem?_run {f e : Fault} {before : List Hop} (he : final f before = some e) (hop : Hop)
    (later : List Hop) : (run f (before ++ hop :: later))[before.length]? = some (hop.take e) := by
  induction before generalizing f with
  | nil =>
    cases he
    rfl
  | cons first before ih =>
    obtain ⟨g, hg, he⟩ := Option.bind_eq_some_iff.mp he
    simp only [List.cons_append, run, hg, List.length_cons, List.getElem?_cons_succ]
    exact ih he

end Relay
end FaultCodec
