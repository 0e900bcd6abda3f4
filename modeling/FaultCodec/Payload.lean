import FaultCodec.Json.Record
import FaultCodec.Json.Value
import FaultCodec.Kind

/-!
# Detail payloads

The payload beside a status: a tag and, where it is not empty, a reason. It travels as the bytes of
a compact JSON object; no bytes at all stand for no payload.
-/

namespace FaultCodec

structure Payload where
  tag : Tag
  reason : String := ""
  deriving Repr, DecidableEq

namespace Payload

def ofKind (k : Kind) : Payload := ⟨k.tag, k.reason?.getD ""⟩

def kind (p : Payload) : Kind := p.tag.kind p.reason

/-- An empty reason is left out. -/
def toJson (p : Payload) : Json.Value :=
  .object (("subtype", .string p.tag.text) ::
    if p.reason = "" then [] else [("reason", .string p.reason)])

def bytes (p : Payload) : List UInt8 := p.toJson.bytes

/-- The fields of a payload that is being read. -/
structure Draft where
  tag : Option Tag := none
  reason : Option String := none

def readTag : Json.Reader Tag := Json.readChoice (Tag.all.map fun t => (t.text, t))

/-- The tag has no default, the reason has. -/
def record : Json.Record Draft Payload where
  title := "struct ErrorDetails"
  fields := [
    ⟨"subtype", fun d => d.tag.isSome,
      fun d => Json.into readTag fun t => { d with tag := some t }⟩,
    ⟨"reason", fun d => d.reason.isSome,
      fun d => Json.into Json.readText fun r => { d with reason := some r }⟩]
  blank := {}
  finish := fun d => match d.tag with
    | some t => .ok ⟨t, d.reason.getD ""⟩
    | none => .error "subtype"

def read : Json.Reader Payload := record.read

/-- The payload of some bytes; none for no bytes. -/
def ofBytes (bytes : List UInt8) : Except Json.Error (Option Payload) :=
  if bytes.isEmpty then .ok none else (Json.parse read bytes).map some

def malformedMessage (bytes : List UInt8) (e : Json.Error) : String :=
  "malformed status details: " ++ e.message bytes

def inspect (p : Payload) : String :=
  "ErrorDetails \x7b subtype: " ++ p.tag.name ++ ", reason: " ++ Text.quote p.reason ++ " \x7d"

@[simp] theorem kind_ofKind (k : Kind) : (ofKind k).kind = k := by
  simp [ofKind, kind]

@[simp] theorem ofBytes_nil : ofBytes [] = .ok none := rfl

end Payload
end FaultCodec
