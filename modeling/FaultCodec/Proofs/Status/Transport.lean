import FaultCodec.Proofs.Payload
import FaultCodec.Status.Json
import FaultCodec.Status.Trailers

/-!
# Statuses on the wire

Every status arrives as it was sent, over its parts, as JSON and in trailers, whether or not a fault
could have been encoded as that status.
-/

namespace FaultCodec
namespace Status

open Json

theorem lookup_name (c : Code) : (Code.all.map fun c => (c.name, c)).lookup c.name = some c := by
  cases c <;> decide

theorem reads_codeName (c : Code) : Reads readCode (Value.string c.name).bytes c :=
  reads_choice (lookup_name c)

theorem reads_code (c : Code) (rest : List UInt8) :
    record.readMember {} "code" (Byte.colon :: ((Value.string c.name).bytes ++ rest)) =
      .ok ({ code := some c }, rest) := by
  have hf : record.fields.find? (·.name = "code") = some record.fields[0] := rfl
  exact Record.readMember_into hf rfl (reads_codeName c rest)

theorem reads_message (c : Code) (m : String) (rest : List UInt8) :
    record.readMember { code := some c } "message"
        (Byte.colon :: ((Value.string m).bytes ++ rest)) =
      .ok ({ code := some c, message := some m }, rest) := by
  have hf : record.fields.find? (·.name = "message") = some record.fields[1] := rfl
  exact Record.readMember_into hf rfl (reads_text m rest)

theorem reads_details (c : Code) (m : String) (p : Payload) (rest : List UInt8) :
    record.readMember { code := some c, message := some m } "details"
        (Byte.colon :: (p.bytes ++ rest)) =
      .ok ({ code := some c, message := some m, payload := some (some p) }, rest) := by
  have hf : record.fields.find? (·.name = "details") = some record.fields[2] := rfl
  have hp : Reads (readOptional Payload.read) p.bytes (some p) := by
    obtain ⟨more, hm⟩ := p.bytes_eq_cons
    have hb := p.reads_bytes
    rw [hm] at hb ⊢
    exact hb.optional (by decide) (by decide)
  exact Record.readMember_into hf rfl (hp rest)

theorem reads_json (s : Status) : Reads record.read s.toJson.bytes s := by
  obtain ⟨c, m, payload⟩ := s
  cases payload with
  | none =>
    exact Record.reads_object (.cons (fun rest _ => reads_code c rest)
      (.cons (fun rest _ => reads_message c m rest) .nil)) rfl
  | some p =>
    exact Record.reads_object (.cons (fun rest _ => reads_code c rest)
      (.cons (fun rest _ => reads_message c m rest)
        (.cons (fun rest _ => reads_details c m p rest) .nil))) rfl

@[simp] theorem ofBytes_payloadBytes (s : Status) :
    Payload.ofBytes s.payloadBytes = .ok s.payload := by
  cases h : s.payload with
  | none => simp [payloadBytes, h]
  | some p => simp [payloadBytes, h]

@[simp] theorem ofParts_payloadBytes (s : Status) :
    ofParts s.code s.message s.payloadBytes = .quiet s := by
  simp [ofParts]

@[simp] theorem ofJson_toJson (s : Status) : ofJson s.toJson.bytes = .ok s :=
  (reads_json s).parse

@[simp] theorem status_ofStatus (s : Status) : (Trailers.ofStatus s).status = .quiet s := by
  simp [Trailers.status, Trailers.ofStatus]

theorem payloadBytes_eq_nil_iff (s : Status) : s.payloadBytes = [] ↔ s.payload = none := by
  cases h : s.payload with
  | none => simp [payloadBytes, h]
  | some p => simp [payloadBytes, h, p.bytes_ne_nil]

/-- No transport changes a status or logs anything, and the bytes of a payload tell whether there is
one. -/
theorem transports_lossless (s : Status) :
    ofParts s.code s.message s.payloadBytes = .quiet s ∧
      ofJson s.toJson.bytes = .ok s ∧
      (Trailers.ofStatus s).status = .quiet s ∧
      (s.payloadBytes = [] ↔ s.payload = none) :=
  ⟨ofParts_payloadBytes s, ofJson_toJson s, status_ofStatus s, payloadBytes_eq_nil_iff s⟩

end Status
end FaultCodec
