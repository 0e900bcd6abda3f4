import FaultCodec.Proofs.Relay.Transparency
import FaultCodec.Proofs.Status.Transport

/-!
# What a fallback keeps

A status whose kind cannot be told becomes an internal fault with the code and the message in its
text. Both can be read back from there: no name of a code holds a full stop, so the name ends at the
first one, and the message is all that follows the code. Transports keep the text, so this is still
so after any number of them.
-/

namespace FaultCodec

theorem Code.name_injective : Function.Injective Code.name := by
  intro c d h
  have hc := Status.lookup_name c
  rw [h, Status.lookup_name d] at hc
  exact (Option.some.inj hc).symm

theorem Code.stop_not_mem_name (c : Code) : '.' ∉ c.name.toList := by
  cases c <;> decide

/-- The name of a code is what stands before the first full stop. -/
theorem Code.takeWhile_name_append (c : Code) (rest : List Char) :
    (c.name.toList ++ '.' :: rest).takeWhile (· ≠ '.') = c.name.toList := by
  have hname : ∀ x ∈ c.name.toList, decide (x ≠ '.') = true := by
    intro x hx
    simpa using ne_of_mem_of_not_mem hx c.stop_not_mem_name
  rw [List.takeWhile_append_of_pos hname]
  simp

namespace Status

/-- A status other than success, of which no payload tells the kind. -/
def FallsBack (s : Status) : Prop :=
  s.code ≠ .ok ∧ ∀ p, s.payload = some p → p.tag ∉ s.code.tags

theorem FallsBack.decode {s : Status} (h : s.FallsBack) :
    s.decode = ⟨some s.fallback, [s.fallbackWarning]⟩ := by
  obtain ⟨hs, hp⟩ := h
  apply decode_of_unfit hs
  intro p h hc
  exact hp p h ((Code.mem_tags_iff s.code p.tag).mpr (p.code_kind.symm.trans hc))

theorem toList_fallbackMessage (s : Status) :
    s.fallbackMessage.toList = "missing subtype specifier for ".toList ++
      (s.code.name.toList ++ '.' :: ' ' :: (s.code.heading s.message).toList) := by
  unfold fallbackMessage
  simp only [String.toList_append, List.append_assoc]
  rfl

theorem code_eq_of_fallbackMessage_eq {s t : Status} (h : s.fallbackMessage = t.fallbackMessage) :
    s.code = t.code := by
  have hl := congrArg String.toList h
  rw [toList_fallbackMessage, toList_fallbackMessage] at hl
  have hn := congrArg (List.takeWhile (· ≠ '.')) (List.append_cancel_left hl)
  rw [Code.takeWhile_name_append, Code.takeWhile_name_append] at hn
  exact Code.name_injective (String.toList_injective hn)

theorem fallbackMessage_eq_iff (s t : Status) :
    s.fallbackMessage = t.fallbackMessage ↔ s.code = t.code ∧ s.message = t.message := by
  constructor
  · intro h
    have hc := code_eq_of_fallbackMessage_eq h
    rw [fallbackMessage_eq, fallbackMessage_eq, hc, String.append_right_inj] at h
    exact ⟨hc, h⟩
  · rintro ⟨hc, hm⟩
    rw [fallbackMessage_eq, fallbackMessage_eq, hc, hm]

theorem fallback_equiv_iff (s t : Status) :
    s.fallback ≈ t.fallback ↔ s.code = t.code ∧ s.message = t.message := by
  rw [← fallbackMessage_eq_iff]
  exact and_iff_right rfl

/-- Two statuses that fall back are decoded to equivalent faults where their codes and their
messages are the same, whatever their payloads, and nowhere else; and so are they still after any
transports of the two faults. -/
theorem fallbacks_told_apart {s t : Status} (hs : s.FallsBack) (ht : t.FallsBack) :
    ∃ f g, s.decode.value = some f ∧ t.decode.value = some g ∧
      (f ≈ g ↔ s.code = t.code ∧ s.message = t.message) ∧
      ∀ hops hops' : List Relay.Hop,
        (∀ hop ∈ hops, hop.isTransport = true) → (∀ hop ∈ hops', hop.isTransport = true) →
        ∃ a b, Relay.final f hops = some a ∧ Relay.final g hops' = some b ∧
          (a ≈ b ↔ s.code = t.code ∧ s.message = t.message) := by
  refine ⟨s.fallback, t.fallback, ?_, ?_, fallback_equiv_iff s t, ?_⟩
  · rw [hs.decode]
  · rw [ht.decode]
  · intro hops hops' h h'
    obtain ⟨a, ha, haf⟩ := Relay.final_transports s.fallback h
    obtain ⟨b, hb, hbg⟩ := Relay.final_transports t.fallback h'
    refine ⟨a, b, ha, hb, ?_⟩
    rw [← fallback_equiv_iff]
    exact ⟨fun hab => Setoid.trans (Setoid.symm haf) (Setoid.trans hab hbg),
      fun hfg => Setoid.trans haf (Setoid.trans hfg (Setoid.symm hbg))⟩

/-- A status without a payload; its message goes on like the text of a fallback. -/
def untagged : Status := { code := .cancelled, message := "Cancelled. wire:Unknown: gone" }

/-- The same status with a payload that belongs to another code. -/
def mistagged : Status := { untagged with payload := some ⟨.internal, "moved"⟩ }

/-- The payload makes no difference, neither at once nor after some transports. -/
theorem fallbacks_told_apart_mistagged :
    untagged.FallsBack ∧ mistagged.FallsBack ∧
      ∃ f g a b, untagged.decode.value = some f ∧ mistagged.decode.value = some g ∧ f ≈ g ∧
        Relay.final f [.json, .status] = some a ∧ Relay.final g [.trailers] = some b ∧ a ≈ b := by
  have hu : untagged.FallsBack := by
    refine ⟨by decide, ?_⟩
    rintro p ⟨⟩
  have hm : mistagged.FallsBack := by
    refine ⟨by decide, ?_⟩
    rintro p ⟨⟩
    decide
  obtain ⟨f, g, hf, hg, hfg, htransports⟩ := fallbacks_told_apart hu hm
  obtain ⟨a, b, ha, hb, hab⟩ := htransports [.json, .status] [.trailers] (by decide) (by decide)
  exact ⟨hu, hm, f, g, a, b, hf, hg, hfg.mpr ⟨rfl, rfl⟩, ha, hb, hab.mpr ⟨rfl, rfl⟩⟩

end Status
end FaultCodec
