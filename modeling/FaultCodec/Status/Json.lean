import FaultCodec.Status

/-!
# Statuses as JSON

A status is a JSON object of its code, its message and, where there is one, its payload. The code
has no default; a message is empty and a payload absent unless given.
-/

namespace FaultCodec
namespace Status

def toJson (s : Status) : Json.Value :=
  .object ([("code", .string s.code.name), ("message", .string s.message)] ++
    match s.payload with
    | none => []
    | some p => [("details", p.toJson)])

structure Draft where
  code : Option Code := none
  message : Option String := none
  payload : Option (Option Payload) := none

def readCode : Json.Reader Code := Json.readChoice (Code.all.map fun c => (c.name, c))

def record : Json.Record Draft Status where
  title := "struct WireStatus"
  fields := [
    ⟨"code", fun d => d.code.isSome,
      fun d => Json.into readCode fun c => { d with code := some c }⟩,
    ⟨"message", fun d => d.message.isSome,
      fun d => Json.into Json.readText fun m => { d with message := some m }⟩,
    ⟨"details", fun d => d.payload.isSome,
      fun d => Json.into (Json.readOptional Payload.read) fun p => { d with payload := some p }⟩]
  blank := {}
  finish := fun d => match d.code with
    | some c => .ok ⟨c, d.message.getD "", d.payload.getD none⟩
    | none => .error "code"

def ofJson (bytes : List UInt8) : Except Json.Error Status := Json.parse record.read bytes

def codeOfJson (bytes : List UInt8) : Except Json.Error Code := Json.parse readCode bytes

end Status
end FaultCodec
