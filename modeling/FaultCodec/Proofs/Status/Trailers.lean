import FaultCodec.Proofs.Status.Transport
import Mathlib.Tactic.IntervalCases

/-!
# Trailers from a peer

Trailers that come from a peer may hold any number and any detail bytes. They are decoded as their
parts are, since the two code spaces agree on every number. The trailers that their status is put
into hold the same code and message, and the payload in its own bytes if it could be read; a second
time nothing changes, as these are trailers of a status.
-/

namespace FaultCodec

namespace Code

theorem ofNumber_of_not_le {n : Int} (h : ¬(0 ≤ n ∧ n ≤ 16)) : ofNumber n = unknown := by
  unfold ofNumber
  split
  case h_18 => rfl
  all_goals exact absurd (by decide) h

/-- Both code spaces hold the same numbers and take every other number for `unknown`. -/
theorem ofNumber_ofNumber (n : Int) : ofNumber (RpcCode.ofNumber n).number = ofNumber n := by
  by_cases h : 0 ≤ n ∧ n ≤ 16
  · have hn : ((RpcCode.ofNumber n).number : Int) = n := by
      rw [RpcCode.ofNumber, dif_pos h]
      exact Int.toNat_of_nonneg h.1
    rw [hn]
  · rw [RpcCode.ofNumber, dif_neg h, ofNumber_of_not_le h]
    rfl

end Code

namespace RpcCode

theorem ofNumber_ofNumber (n : Int) : ofNumber (Code.ofNumber n).number = ofNumber n := by
  by_cases h : 0 ≤ n ∧ n ≤ 16
  · obtain ⟨h₁, h₂⟩ := h
    interval_cases n <;> rfl
  · rw [Code.ofNumber_of_not_le h, ofNumber, ofNumber, dif_neg h]
    rfl

theorem number_ofNumber (n : Int) :
    ((ofNumber n).number : Int) = if 0 ≤ n ∧ n ≤ 16 then n else 2 := by
  rw [ofNumber]
  split_ifs with h
  · exact Int.toNat_of_nonneg h.1
  · rfl

end RpcCode

namespace Trailers

theorem status_ofRaw (code : Int) (message : String) (details : List UInt8) :
    (ofRaw code message details).status =
      Status.ofParts (Code.ofNumber code) message details := by
  rw [status, ofRaw, Code.ofNumber_ofNumber]

theorem code_value_status (t : Trailers) : t.status.value.code = Code.ofNumber t.code.number := by
  rw [status, Status.ofParts]
  split <;> rfl

theorem message_value_status (t : Trailers) : t.status.value.message = t.message := by
  rw [status, Status.ofParts]
  split <;> rfl

/-- What is left of detail bytes when the status of their trailers is put into trailers again. -/
theorem payloadBytes_value_status (t : Trailers) :
    (t.details = [] ∨ ∃ e, Payload.ofBytes t.details = .error e) ∧
        t.status.value.payloadBytes = [] ∨
      ∃ p, Payload.ofBytes t.details = .ok (some p) ∧ t.status.value.payloadBytes = p.bytes := by
  rw [status, Status.ofParts]
  cases hd : Payload.ofBytes t.details with
  | error e => exact Or.inl ⟨Or.inr ⟨e, rfl⟩, rfl⟩
  | ok payload =>
    cases payload with
    | none => exact Or.inl ⟨Or.inl (Payload.ofBytes_eq_none_iff.mp hd), rfl⟩
    | some p => exact Or.inr ⟨p, rfl, rfl⟩

/-- Trailers of any number, message and detail bytes hold the code of that number, or `unknown`, and
are decoded, with the same events, as the parts that they are made of. The trailers of their status
have the same code and message; detail bytes that are no payload are dropped, and others hold the
same payload. That status goes through trailers unchanged from then on. -/
theorem agree_with_parts (code : Int) (message : String) (details : List UInt8) :
    let t := ofRaw code message details
    let again := ofStatus t.status.value
    (t.code.number : Int) = (if 0 ≤ code ∧ code ≤ 16 then code else 2) ∧
      t.decode = Status.decodeParts (Code.ofNumber code) message details ∧
      again.code = t.code ∧
      again.message = t.message ∧
      ((details = [] ∨ ∃ e, Payload.ofBytes details = .error e) ∧ again.details = [] ∨
        ∃ p, Payload.ofBytes details = .ok (some p) ∧
          Payload.ofBytes again.details = .ok (some p)) ∧
      again.status = .quiet t.status.value ∧
      ofStatus again.status.value = again := by
  intro t again
  have hs : again.status = .quiet t.status.value := Status.status_ofStatus t.status.value
  refine ⟨RpcCode.number_ofNumber code, ?_, ?_, t.message_value_status, ?_, hs, ?_⟩
  · rw [decode, status_ofRaw, Status.decodeParts]
  · change RpcCode.ofNumber t.status.value.code.number = t.code
    rw [code_value_status]
    change RpcCode.ofNumber (Code.ofNumber (RpcCode.ofNumber code).number).number = _
    rw [Code.ofNumber_ofNumber, RpcCode.ofNumber_ofNumber]
    rfl
  · rcases t.payloadBytes_value_status with h | ⟨p, hp, hb⟩
    · exact Or.inl h
    · right
      refine ⟨p, hp, ?_⟩
      change Payload.ofBytes t.status.value.payloadBytes = _
      rw [hb, Payload.ofBytes_bytes]
  · rw [hs]
    rfl

end Trailers
end FaultCodec
