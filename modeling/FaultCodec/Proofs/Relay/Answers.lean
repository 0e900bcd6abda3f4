import FaultCodec.Proofs.Fault
import FaultCodec.Proofs.Http
import FaultCodec.Proofs.Relay

/-!
# Relays that answer over HTTP

A fault that is answered over HTTP comes back with the kind of its status and with the status line
in front of its trimmed message. After the first answer the kind stays, and there is nothing left to
trim, so each further answer only puts one more status line in front.
-/

namespace FaultCodec

open Text (isBlankText trim trim_append_of_trim_eq_self trim_eq_empty_iff trim_trim)

theorem Code.heading_append (c : Code) (front text : String) :
    c.heading (front ++ text) = c.heading front ++ text := by
  simp only [heading, String.append_assoc]

/-- Behind a code a text needs trimming at its end only. -/
theorem Code.trim_heading_append (c : Code) (front : String) {text : String}
    (h : trim text = text) (hne : text ≠ "") :
    trim (c.heading (front ++ text)) = c.heading (front ++ text) := by
  have hw : ∃ cs, (c.heading front).toList = 'w' :: cs :=
    ⟨_, by simp only [heading, String.toList_append]; rfl⟩
  obtain ⟨cs, hw⟩ := hw
  rw [heading_append]
  exact trim_append_of_trim_eq_self hw (by decide) h hne

namespace Http.Status

/-- The kinds that come back from an answer come back from the next one unchanged. -/
theorem kind_ofKind_kind_ofKind (k : Kind) :
    (ofKind (ofKind k).kind).kind = (ofKind k).kind := by
  cases k <;> rfl

theorem isRateLimited_kind_ofKind (k : Kind) : (ofKind k).kind.isRateLimited = k.isRateLimited := by
  cases k <;> rfl

theorem isClientError_kind_ofKind (k : Kind) : (ofKind k).kind.isClientError = k.isClientError := by
  cases k <;> rfl

/-- The statuses of two kinds stand for internal faults; those of all others are answered once
more. -/
theorem ofKind_kind_ofKind (k : Kind) :
    if k.tag = .requiresProxyRequest ∨ k.tag = .disabled then (ofKind k).kind = .internal
    else ofKind (ofKind k).kind = ofKind k := by
  cases k <;> rfl

theorem line_ne_empty (s : Http.Status) : s.line ≠ "" := by
  simp [line]

theorem text_ne_empty (s : Http.Status) (body : String) : s.text body ≠ "" := by
  rw [text_eq]
  split_ifs
  · exact s.line_ne_empty
  · simp

theorem trim_line_ofKind (k : Kind) : trim (ofKind k).line = (ofKind k).line := by
  cases k with
  | requiresProxyRequest reason =>
    -- the status does not depend on the reason
    change trim (ofKind (.requiresProxyRequest "")).line = (ofKind (.requiresProxyRequest "")).line
    decide
  | _ => decide

/-- The status line of a kind, as it is put in front of a message. -/
def note (k : Kind) : String := k.code.heading ((ofKind k).line ++ ": ")

theorem heading_text (c : Code) (s : Http.Status) (body : String) : c.heading (s.text body) =
    c.heading s.line ++ (if isBlankText body = true then "" else ": " ++ trim body) := by
  rw [text_eq]
  split_ifs
  · rw [String.append_empty]
  · rw [String.append_assoc, Code.heading_append]

theorem trim_heading_text (c : Code) (k : Kind) (body : String) :
    trim (c.heading ((ofKind k).text body)) = c.heading ((ofKind k).text body) := by
  rw [text_eq]
  split_ifs with h
  · have ht := c.trim_heading_append "" (trim_line_ofKind k) (line_ne_empty _)
    rwa [String.empty_append] at ht
  · exact c.trim_heading_append _ (trim_trim body) (mt (trim_eq_empty_iff body).mp h)

end Http.Status

namespace Relay

open Http.Status (note ofKind)

/-- A fault that has been answered: a further answer keeps its kind, and its message has nothing to
trim. -/
structure Settled (g : Fault) : Prop where
  kind : (ofKind g.kind).kind = g.kind
  cause : g.cause? = none
  trimmed : trim g.message = g.message
  message : g.message ≠ ""

theorem settled_answer (f : Fault) : ∃ g, (Hop.http.take f).arrived? = some g ∧ Settled g ∧
    g.kind = (ofKind f.kind).kind ∧
    g.message = (ofKind f.kind).kind.code.heading ((ofKind f.kind).text f.message) := by
  have hm := Fault.message_raise_of_ne_empty (ofKind f.kind).kind
    ((ofKind f.kind).text_ne_empty f.message)
  refine ⟨_, arrived?_http f, ⟨?_, rfl, ?_, ?_⟩, rfl, hm⟩
  · exact Http.Status.kind_ofKind_kind_ofKind f.kind
  · rw [hm]
    exact Http.Status.trim_heading_text _ f.kind f.message
  · rw [hm]
    simp [Code.heading]

theorem Settled.answer {g : Fault} (h : Settled g) : ∃ e, (Hop.http.take g).arrived? = some e ∧
    Settled e ∧ e.kind = g.kind ∧ e.message = note g.kind ++ g.message := by
  obtain ⟨e, he, hs, hk, hm⟩ := settled_answer g
  have hb : isBlankText g.message ≠ true := by
    intro hb
    rw [← trim_eq_empty_iff, h.trimmed] at hb
    exact h.message hb
  refine ⟨e, he, hs, hk.trans h.kind, ?_⟩
  rw [hm, h.kind, Http.Status.text_eq, if_neg hb, h.trimmed, Code.heading_append]
  rfl

/-- A run of answers, by induction on their number: the first one settles the fault, each further
one puts its note in front. -/
theorem final_replicate_http (f : Fault) (n : Nat) :
    ∃ g, final f (List.replicate (n + 1) .http) = some g ∧ Settled g ∧
      g.kind = (ofKind f.kind).kind ∧
      g.message = String.join (List.replicate n (note (ofKind f.kind).kind)) ++
        (ofKind f.kind).kind.code.heading ((ofKind f.kind).text f.message) := by
  induction n with
  | zero =>
    obtain ⟨g, hg, hs, hk, hm⟩ := settled_answer f
    refine ⟨g, (final_concat (final_nil f) .http).trans hg, hs, hk, ?_⟩
    rw [hm]
    rfl
  | succ n ih =>
    obtain ⟨g, hg, hs, hk, hm⟩ := ih
    obtain ⟨e, he, hse, hke, hme⟩ := hs.answer
    refine ⟨e, ?_, hse, hke.trans hk, ?_⟩
    · rw [List.replicate_succ', final_concat hg, he]
    · rw [hme, hm, hk, List.replicate_succ, String.join_cons, String.append_assoc]

/-- The first answer decides the kind. It keeps what the kind says about rates and callers, and also
the status unless that stands for internal faults. After any number of answers the message is the
trimmed one behind the status line of the first answer and the notes of the others, and the next
answer puts one more note in front of it. -/
theorem answers_in_turn (f : Fault) : ∃ first, final f [.http] = some first ∧
    first.kind.isRateLimited = f.kind.isRateLimited ∧
    first.kind.isClientError = f.kind.isClientError ∧
    (if f.kind.tag = .requiresProxyRequest ∨ f.kind.tag = .disabled then first.kind = .internal
      else ofKind first.kind = ofKind f.kind) ∧
    ∀ n, ∃ g, final f (List.replicate (n + 1) .http) = some g ∧
      g.kind = first.kind ∧ g.cause? = none ∧
      g.message = String.join (List.replicate n (note first.kind)) ++
        (first.kind.code.heading (ofKind f.kind).line ++
          if isBlankText f.message = true then "" else ": " ++ trim f.message) ∧
      ∃ next, final f (List.replicate (n + 2) .http) = some next ∧
        next.message = note first.kind ++ g.message := by
  obtain ⟨first, hfirst, _, hk, _⟩ := final_replicate_http f 0
  refine ⟨first, hfirst, ?_, ?_, ?_, ?_⟩
  · rw [hk, Http.Status.isRateLimited_kind_ofKind]
  · rw [hk, Http.Status.isClientError_kind_ofKind]
  · rw [hk]
    exact Http.Status.ofKind_kind_ofKind f.kind
  · intro n
    obtain ⟨g, hg, hs, hgk, hgm⟩ := final_replicate_http f n
    obtain ⟨next, hn, _, _, hnm⟩ := hs.answer
    refine ⟨g, hg, hgk.trans hk.symm, hs.cause, ?_, next, ?_, ?_⟩
    · rw [hgm, hk, Http.Status.heading_text]
    · rw [List.replicate_succ', final_concat hg, hn]
    · rw [hnm, hgk, hk]

example : (final (.raise .disabled " off\n") [.http, .http]).map Fault.message =
    some ("wire:Internal: 500 Internal Server Error: " ++
      "wire:Internal: 503 Service Unavailable: wire:Unavailable:  off") := by
  decide

end Relay
end FaultCodec
