import FaultCodec.Proofs.Log.Event
import FaultCodec.Status
import Mathlib.Tactic.SplitIfs

/-!
# What a status is decoded to

The code and the payload decide. A payload is trusted where the kind that it describes travels under
the code of the status; any other status than success becomes an internal fault, with one warning.
-/

namespace FaultCodec

theorem Kind.code_ne_ok (k : Kind) : k.code ≠ .ok := by
  cases k <;> simp [code]

theorem Payload.code_kind (p : Payload) : p.kind.code = p.tag.code := Tag.code_kind p.tag p.reason

theorem Payload.tag_kind (p : Payload) : p.kind.tag = p.tag := Tag.tag_kind p.tag p.reason

theorem Payload.reason?_kind (p : Payload) :
    p.kind.reason? = if p.tag = .requiresProxyRequest then some p.reason else none := by
  obtain ⟨tag, reason⟩ := p
  cases tag <;> rfl

namespace Status

theorem usablePayload?_eq_some_iff (s : Status) (p : Payload) :
    s.usablePayload? = some p ↔ s.payload = some p ∧ p.kind.code = s.code := by
  simp [usablePayload?, Option.filter_eq_some_iff, Code.mem_tags_iff, Payload.code_kind]

theorem usablePayload?_eq_none_iff (s : Status) :
    s.usablePayload? = none ↔ ∀ p, s.payload = some p → p.kind.code ≠ s.code := by
  simp [usablePayload?, Option.filter_eq_none_iff, Code.mem_tags_iff, Payload.code_kind]

theorem decode_of_fits {s : Status} {p : Payload} (hp : s.payload = some p)
    (hc : p.kind.code = s.code) : s.decode = .quiet (some (.rendered p.kind s.message)) := by
  have hs : s.isOk = false := by
    simpa [isOk, Code.isOk] using hc ▸ p.kind.code_ne_ok
  simp [decode, hs, (s.usablePayload?_eq_some_iff p).mpr ⟨hp, hc⟩]

theorem decode_of_unfit {s : Status} (hs : s.code ≠ .ok)
    (h : ∀ p, s.payload = some p → p.kind.code ≠ s.code) :
    s.decode = ⟨some s.fallback, [s.fallbackWarning]⟩ := by
  have hs : s.isOk = false := by simpa [isOk, Code.isOk] using hs
  simp [decode, hs, s.usablePayload?_eq_none_iff.mpr h]

theorem decode_of_ok {s : Status} (h : s.code = .ok) : s.decode = .quiet none :=
  decode_of_isOk (by simpa [isOk] using h)

@[simp] theorem decode_ofFault (f : Fault) :
    (ofFault f).decode = .quiet (some (.rendered f.kind f.message)) := by
  have hp : (ofFault f).payload = some (Payload.ofKind f.kind) := rfl
  have hc : (Payload.ofKind f.kind).kind.code = (ofFault f).code := by
    rw [Payload.kind_ofKind]
    rfl
  rw [decode_of_fits hp hc, Payload.kind_ofKind, message_ofFault]

theorem decode_cases (s : Status) :
    s.code = .ok ∧ s.decode = .quiet none ∨
    (∃ p, s.payload = some p ∧ p.kind.code = s.code ∧
      s.decode = .quiet (some (.rendered p.kind s.message))) ∨
    s.code ≠ .ok ∧ s.decode = ⟨some s.fallback, [s.fallbackWarning]⟩ := by
  by_cases hs : s.code = .ok
  · exact Or.inl ⟨hs, decode_of_ok hs⟩
  · by_cases h : ∃ p, s.payload = some p ∧ p.kind.code = s.code
    · obtain ⟨p, hp, hc⟩ := h
      exact Or.inr (Or.inl ⟨p, hp, hc, decode_of_fits hp hc⟩)
    · exact Or.inr (Or.inr ⟨hs, decode_of_unfit hs fun p hp hc => h ⟨p, hp, hc⟩⟩)

theorem fallbackMessage_eq (s : Status) :
    s.fallbackMessage = "missing subtype specifier for " ++ s.code.name ++ ". wire:" ++
      s.code.name ++ ": " ++ s.message := by
  have hw : ". " ++ "wire:" = ". wire:" := by decide
  unfold fallbackMessage Code.heading
  simp only [String.append_assoc]
  rw [← hw, String.append_assoc]

theorem isLine_seenTag (s : Status) : Log.IsLine s.seenTag := by
  cases h : s.payload with
  | none =>
    simp only [seenTag, h]
    decide
  | some p =>
    have ht : Log.IsLine p.tag.name := by
      cases p.tag <;> decide
    simp only [seenTag, h, Log.isLine_append]
    exact ⟨⟨by decide, ht⟩, by decide⟩

/-- Nothing that a peer sends can split the warning. -/
theorem lines_fallbackWarning (s : Status) :
    s.fallbackWarning.lines = [s.fallbackWarning.text] := by
  have hc : Log.IsLine s.code.name := by
    cases s.code <;> decide
  have hf : ∀ f ∈ s.fallbackWarning.fields, Log.IsLine f.1 ∧ Log.IsLine f.2.show := by
    intro f hf
    simp only [fallbackWarning, List.mem_cons, List.not_mem_nil, or_false] at hf
    rcases hf with rfl | rfl
    · exact ⟨show Log.IsLine "code" by decide, hc⟩
    · exact ⟨show Log.IsLine "subtype" by decide, s.isLine_seenTag⟩
  have ht : Log.IsLine s.fallbackWarning.target :=
    show Log.IsLine "wirex_status::codec" by decide
  have hm : Log.IsLine s.fallbackWarning.message :=
    show Log.IsLine "status has no usable subtype specifier, decoding as Internal" by decide
  exact Log.Event.lines_of_isLine (Log.Event.isLine_text ht hm hf)

theorem kind_decode (s : Status) :
    s.decode.value.map Fault.kind =
      if s.isOk then none else some (s.usablePayload?.elim .internal Payload.kind) := by
  unfold decode
  split_ifs with hs
  · rfl
  · cases h : s.usablePayload? with
    | none => rfl
    | some p => rfl

theorem value_decode_eq_none_iff (s : Status) : s.decode.value = none ↔ s.code = .ok := by
  constructor
  · intro h
    rcases s.decode_cases with ⟨hs, _⟩ | ⟨p, _, _, hd⟩ | ⟨_, hd⟩
    · exact hs
    · simp [hd] at h
    · simp [hd] at h
  · intro h
    rw [decode_of_ok h]
    rfl

theorem code_kind_of_decode {s : Status} {f : Fault} (hf : s.decode.value = some f)
    (hk : f.kind ≠ .internal) : f.kind.code = s.code := by
  rcases s.decode_cases with ⟨_, hd⟩ | ⟨p, _, hc, hd⟩ | ⟨_, hd⟩
  · simp [hd] at hf
  · simp only [hd, Log.Logged.value_quiet, Option.some.injEq] at hf
    rw [← hf]
    exact hc
  · simp only [hd, Option.some.injEq] at hf
    rw [← hf] at hk
    exact absurd rfl hk

theorem kind_decode_message (s : Status) (m : String) :
    ({ s with message := m } : Status).decode.value.map Fault.kind =
      s.decode.value.map Fault.kind := by
  rw [kind_decode, kind_decode]
  rfl

theorem seenTag_eq (s : Status) :
    s.seenTag = s.payload.elim "None" fun p => "Some(" ++ p.tag.name ++ ")" := by
  unfold seenTag
  cases s.payload <;> rfl

/-- Success decodes to nothing; a payload of a kind that travels under the code of the status
decides about kind and reason, with the message as it is; all else becomes an internal fault that
names the code before the message, with one warning of one line. The warning names the code, and the
tag of the payload if there is one. -/
theorem decode_outcomes (s : Status) :
    (s.decode.value = none ↔ s.code = .ok) ∧
    (s.code = .ok → s.decode.events = []) ∧
    (∀ p, s.code ≠ .ok → s.payload = some p → p.kind.code = s.code →
      ∃ f, s.decode = .quiet (some f) ∧ f.kind.tag = p.tag ∧ f.message = s.message ∧
        f.cause? = none ∧
        f.reason? = if p.tag = .requiresProxyRequest then some p.reason else none) ∧
    (s.code ≠ .ok → (∀ p, s.payload = some p → p.kind.code ≠ s.code) →
      ∃ f w, s.decode = ⟨some f, [w]⟩ ∧ f.kind = .internal ∧ f.cause? = none ∧
        f.message = "missing subtype specifier for " ++ s.code.name ++ ". wire:" ++
          s.code.name ++ ": " ++ s.message ∧
        w.level = .warn ∧
        w.target = "wirex_status::codec" ∧
        w.message = "status has no usable subtype specifier, decoding as Internal" ∧
        w.fields = [("code", .text s.code.name),
          ("subtype", .text (s.payload.elim "None" fun p => "Some(" ++ p.tag.name ++ ")"))] ∧
        w.lines = [w.text]) ∧
    (∀ m, ({ s with message := m } : Status).decode.value.map Fault.kind =
      s.decode.value.map Fault.kind) ∧
    (∀ f, s.decode.value = some f → f.kind ≠ .internal → f.kind.code = s.code) := by
  refine ⟨s.value_decode_eq_none_iff, ?_, ?_, ?_, s.kind_decode_message, ?_⟩
  · intro h
    rw [decode_of_ok h]
    rfl
  · intro p _ hp hc
    exact ⟨_, decode_of_fits hp hc, p.tag_kind, rfl, rfl, p.reason?_kind⟩
  · intro hs h
    have hf : s.fallbackWarning.fields = [("code", .text s.code.name),
        ("subtype", .text (s.payload.elim "None" fun p => "Some(" ++ p.tag.name ++ ")"))] := by
      rw [← seenTag_eq]
      rfl
    exact ⟨s.fallback, s.fallbackWarning, decode_of_unfit hs h, rfl, rfl, s.fallbackMessage_eq,
      rfl, rfl, rfl, hf, s.lines_fallbackWarning⟩
  · intro f hf hk
    exact code_kind_of_decode hf hk

end Status
end FaultCodec
