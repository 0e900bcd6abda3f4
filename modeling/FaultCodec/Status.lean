import FaultCodec.Fault
import FaultCodec.Log.Event
import FaultCodec.Payload

/-!
# Statuses

A status is a code, a complete message and possibly a payload. Every fault is encoded as a status
with the code of its kind and the payload that describes the kind. A status is decoded by its
payload alone where the tag may stand under the code; otherwise it becomes an internal fault whose
message names the code, and a warning is logged. The message never decides about the kind.
-/

namespace FaultCodec

structure Status where
  code : Code
  message : String := ""
  payload : Option Payload := none
  deriving Repr, DecidableEq

namespace Status

def isOk (s : Status) : Bool := s.code.isOk

def ofFault (f : Fault) : Status := ⟨f.code, f.message, some (Payload.ofKind f.kind)⟩

/-- The payload, if its tag may stand under the code. -/
def usablePayload? (s : Status) : Option Payload := s.payload.filter fun p => p.tag ∈ s.code.tags

/-- The message of a fault whose kind cannot be told. -/
def fallbackMessage (s : Status) : String :=
  "missing subtype specifier for " ++ s.code.name ++ ". " ++ s.code.heading s.message

/-- The internal fault that keeps the code and the message as text. -/
def fallback (s : Status) : Fault := .rendered .internal s.fallbackMessage

/-- The tag that was seen, if any, as inspected. -/
def seenTag (s : Status) : String :=
  match s.payload with
  | none => "None"
  | some p => "Some(" ++ p.tag.name ++ ")"

def fallbackWarning (s : Status) : Log.Event where
  level := .warn
  target := "wirex_status::codec"
  message := "status has no usable subtype specifier, decoding as Internal"
  fields := [("code", .text s.code.name), ("subtype", .text s.seenTag)]

/-- The fault of a status; none for success. -/
def decode (s : Status) : Log.Logged (Option Fault) :=
  if s.isOk then .quiet none
  else match s.usablePayload? with
    | some p => .quiet (some (.rendered p.kind s.message))
    | none => ⟨some s.fallback, [s.fallbackWarning]⟩

/-- Canonical statuses carry the payload of a kind under the code of that kind. -/
def IsCanonical (s : Status) : Prop :=
  ∃ p, s.payload = some p ∧ p.tag.code = s.code ∧
    (p.reason = "" ∨ p.tag = .requiresProxyRequest)

/-- The bytes of the payload; none without a payload. -/
def payloadBytes (s : Status) : List UInt8 := s.payload.elim [] Payload.bytes

/-- The note that the bytes of a payload could not be read. -/
def undecodableNote (code : Code) (bytes : List UInt8) (e : Json.Error) : Log.Event where
  level := .debug
  target := "wirex_status::status"
  message := "ignoring undecodable status details"
  fields := [("code", .text code.name), ("error", .text (Payload.malformedMessage bytes e))]

/-- The status of a code, a message and the bytes of a payload; bytes that cannot be read are noted
and dropped. -/
def ofParts (code : Code) (message : String) (bytes : List UInt8) : Log.Logged Status :=
  match Payload.ofBytes bytes with
  | .ok payload => .quiet ⟨code, message, payload⟩
  | .error e => ⟨⟨code, message, none⟩, [undecodableNote code bytes e]⟩

def decodeParts (code : Code) (message : String) (bytes : List UInt8) :
    Log.Logged (Option Fault) :=
  (ofParts code message bytes).bind decode

@[simp] theorem code_ofFault (f : Fault) : (ofFault f).code = f.code := rfl

@[simp] theorem message_ofFault (f : Fault) : (ofFault f).message = f.message := rfl

theorem decode_of_isOk {s : Status} (h : s.isOk = true) : s.decode = .quiet none := by
  simp [decode, h]

end Status
end FaultCodec
