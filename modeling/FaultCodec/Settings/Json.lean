import FaultCodec.Json.Record
import FaultCodec.Json.Value
import FaultCodec.Settings.Draft

/-!
# Settings as JSON

Settings are written as an object of all fields in their order, without the section where there is
none. They are read from an object or a list; fields that are missing take their defaults.
-/

namespace FaultCodec
namespace RemoteRead

def toJson (r : RemoteRead) : Json.Value :=
  .object [
    ("address", .string r.address),
    ("timeout_secs", .number r.timeout.toNat),
    ("keep_alive_secs", .number r.keepAlive.toNat),
    ("max_idle_conns", .number r.maxIdleConns.toNat),
    ("max_conns", .number r.maxConns.toNat),
    ("client_name", .string r.clientName)]

def record : Json.Record Draft RemoteRead where
  title := title
  fields := [
    ⟨"address", fun d => d.address.isSome,
      fun d => Json.into Json.readText fun a => { d with address := some a }⟩,
    ⟨"timeout_secs", fun d => d.timeout.isSome,
      fun d => Json.into (Json.readUnsigned "u64") fun n => { d with timeout := some n }⟩,
    ⟨"keep_alive_secs", fun d => d.keepAlive.isSome,
      fun d => Json.into (Json.readUnsigned "u64") fun n => { d with keepAlive := some n }⟩,
    ⟨"max_idle_conns", fun d => d.maxIdleConns.isSome,
      fun d => Json.into (Json.readUnsigned "usize") fun n => { d with maxIdleConns := some n }⟩,
    ⟨"max_conns", fun d => d.maxConns.isSome,
      fun d => Json.into (Json.readUnsigned "usize") fun n => { d with maxConns := some n }⟩,
    ⟨"client_name", fun d => d.clientName.isSome,
      fun d => Json.into Json.readText fun a => { d with clientName := some a }⟩]
  blank := {}
  finish := Draft.finish

end RemoteRead

namespace Settings

def toJson (s : Settings) : Json.Value :=
  .object ([
    ("service_name", .string s.serviceName),
    ("log_level", .string s.logLevel),
    ("log_format", .string s.logFormat.name)] ++
    match s.remoteRead with
    | none => []
    | some r => [("remote_read", r.toJson)])

def record : Json.Record Draft Settings where
  title := title
  fields := [
    ⟨"service_name", fun d => d.serviceName.isSome,
      fun d => Json.into Json.readText fun a => { d with serviceName := some a }⟩,
    ⟨"log_level", fun d => d.logLevel.isSome,
      fun d => Json.into Json.readText fun a => { d with logLevel := some a }⟩,
    ⟨"log_format", fun d => d.logFormat.isSome,
      fun d => Json.into (Json.readChoice LogFormat.choices)
        fun f => { d with logFormat := some f }⟩,
    ⟨"remote_read", fun d => d.remoteRead.isSome,
      fun d => Json.into (Json.readOptional RemoteRead.record.read)
        fun r => { d with remoteRead := some r }⟩]
  blank := {}
  finish := fun d => .ok d.finish

def ofJson (bytes : List UInt8) : Except Json.Error Settings := Json.parse record.read bytes

end Settings
end FaultCodec
