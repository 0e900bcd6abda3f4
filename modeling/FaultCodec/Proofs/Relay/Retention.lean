import FaultCodec.Proofs.Fault
import FaultCodec.Proofs.Relay
import FaultCodec.Proofs.Text.Ends

/-!
# The text of a fault stays at the end

Messages are composed anew on the way, behind a heading, a note that no tag was found, or the status
line of an HTTP answer. In all of these the message before the hop comes last. Only an HTTP answer
trims it first, so in a run with such a hop it is the trimmed texts that stay at the end of each
other.
-/

namespace FaultCodec

open Text (EndsWith endsWith_append endsWith_empty trim)

theorem Code.endsWith_heading (c : Code) (text : String) : EndsWith (c.heading text) text :=
  endsWith_append _ text

namespace Fault

/-- A raised fault shows its text last; without a text it has no message at all. -/
theorem endsWith_message_raise (kind : Kind) (text : String) :
    EndsWith (raise kind text).message text := by
  by_cases h : text = ""
  · subst h
    exact endsWith_empty _
  · rw [message_raise_of_ne_empty kind h]
    exact kind.code.endsWith_heading text

theorem endsWith_message_wrapped (kind : Kind) (text : String) (f : Fault) :
    EndsWith ((raise kind text).withCause (.fault f)).message f.message :=
  endsWith_append _ f.message

end Fault

theorem Status.endsWith_message_fallback (s : Status) :
    EndsWith s.fallback.message s.message :=
  (s.code.endsWith_heading s.message).append _

/-- The body stands trimmed at the end of the text; a blank one is trimmed to nothing. -/
theorem Http.Status.endsWith_text (s : Http.Status) (body : String) :
    EndsWith (s.text body) (trim body) := by
  unfold Http.Status.text
  dsimp only
  split_ifs with h
  · rw [h]
    exact endsWith_empty s.line
  · exact endsWith_append _ _

namespace Relay

theorem endsWith_message_answered (f : Fault) (s : Http.Status) :
    EndsWith (Fault.raise s.kind (s.text f.message)).message (trim f.message) :=
  (Fault.endsWith_message_raise s.kind (s.text f.message)).trans (s.endsWith_text f.message)

/-- What arrives shows the message before the hop last, or, behind an HTTP answer, the trimmed
one. -/
theorem Arrives.endsWith_message {f g : Fault} {hop : Hop} (h : Arrives f hop (some g)) :
    EndsWith g.message f.message ∨ hop = .http ∧ EndsWith g.message (trim f.message) := by
  cases h with
  | kept _ => exact Or.inl (EndsWith.refl f.message)
  | @fallback _ s _ hm =>
    rw [← hm]
    exact Or.inl s.endsWith_message_fallback
  | answered => exact Or.inr ⟨rfl, endsWith_message_answered f _⟩
  | wrapped kind text => exact Or.inl (Fault.endsWith_message_wrapped kind text f)
  | grafted _ => exact Or.inl (EndsWith.refl f.message)

/-- One hop never loses the message; only an HTTP answer trims it. -/
theorem endsWith_take {f g : Fault} {hop : Hop} (h : (hop.take f).arrived? = some g) :
    EndsWith (trim g.message) (trim f.message) ∧
      (hop ≠ .http → EndsWith g.message f.message) := by
  have ha := arrives_take f hop
  rw [h] at ha
  rcases ha.endsWith_message with hm | ⟨hhop, hm⟩
  · exact ⟨hm.trim, fun _ => hm⟩
  · refine ⟨?_, fun hne => absurd hhop hne⟩
    have ht := hm.trim
    rwa [Text.trim_trim] at ht

/-- The message at the start of a run stays at the end of every message of the run: trimmed in any
run, and as it is in a run without HTTP answers. -/
theorem text_retained {f g : Fault} {hops : List Hop} (h : final f hops = some g) :
    EndsWith (trim g.message) (trim f.message) ∧
      (.http ∉ hops → EndsWith g.message f.message) := by
  induction hops generalizing f with
  | nil =>
    cases h
    exact ⟨EndsWith.refl _, fun _ => EndsWith.refl _⟩
  | cons hop hops ih =>
    obtain ⟨e, he, hg⟩ := Option.bind_eq_some_iff.mp h
    obtain ⟨htrim, hmessage⟩ := endsWith_take he
    obtain ⟨ihtrim, ihmessage⟩ := ih hg
    refine ⟨ihtrim.trans htrim, ?_⟩
    intro hno
    rw [List.mem_cons, not_or] at hno
    exact (ihmessage hno.2).trans (hmessage (Ne.symm hno.1))

/-- A message between a no-break space and an em space. -/
def padded : Fault := .rendered (.requiresProxyRequest "why") "\u00a0lost\u2003"

/-- A run that takes the payload away, wraps, and replaces the code. -/
def battering : List Hop :=
  [.graftPayload none, .wrap .conflict "", .parts (some 3), .graftCode .dataLoss]

theorem text_retained_padded :
    (∃ g, final padded battering = some g ∧ EndsWith g.message "\u00a0lost\u2003") ∧
      ∃ g, final padded (.http :: battering) = some g ∧ EndsWith (trim g.message) "lost" := by
  have hsome : (final padded battering).isSome = true := by decide
  have hhttp : (final padded (.http :: battering)).isSome = true := by decide
  obtain ⟨g, hg⟩ := Option.isSome_iff_exists.mp hsome
  obtain ⟨e, he⟩ := Option.isSome_iff_exists.mp hhttp
  have htrim : trim padded.message = "lost" := by decide
  refine ⟨⟨g, hg, (text_retained hg).2 (by decide)⟩, e, he, ?_⟩
  rw [← htrim]
  exact (text_retained he).1

end Relay
end FaultCodec
