import FaultCodec.Settings.Draft
import FaultCodec.Toml.Document
import FaultCodec.Toml.Record

/-!
# Settings as TOML

A text that is no TOML at all is told apart from one whose values are not those of settings; only
the latter is explained, at the place of the value.
-/

namespace FaultCodec

namespace RemoteRead

def tomlRecord : Toml.Record Draft RemoteRead where
  title := title
  fields := [
    ⟨"address", fun d => Toml.into Toml.readText fun a => { d with address := some a }⟩,
    ⟨"timeout_secs",
      fun d => Toml.into (Toml.readUnsigned "u64") fun n => { d with timeout := some n }⟩,
    ⟨"keep_alive_secs",
      fun d => Toml.into (Toml.readUnsigned "u64") fun n => { d with keepAlive := some n }⟩,
    ⟨"max_idle_conns",
      fun d => Toml.into (Toml.readUnsigned "usize") fun n => { d with maxIdleConns := some n }⟩,
    ⟨"max_conns",
      fun d => Toml.into (Toml.readUnsigned "usize") fun n => { d with maxConns := some n }⟩,
    ⟨"client_name", fun d => Toml.into Toml.readText fun a => { d with clientName := some a }⟩]
  blank := {}
  finish := Draft.finish

end RemoteRead

inductive ParseError where
  | malformed
  | values (e : Toml.Error)
  deriving Repr, DecidableEq

namespace Settings

def tomlRecord : Toml.Record Draft Settings where
  title := title
  fields := [
    ⟨"service_name", fun d => Toml.into Toml.readText fun a => { d with serviceName := some a }⟩,
    ⟨"log_level", fun d => Toml.into Toml.readText fun a => { d with logLevel := some a }⟩,
    ⟨"log_format", fun d => Toml.into (Toml.readChoice LogFormat.choices)
      fun f => { d with logFormat := some f }⟩,
    ⟨"remote_read", fun d => Toml.into RemoteRead.tomlRecord.read
      fun r => { d with remoteRead := some (some r) }⟩]
  blank := {}
  finish := fun d => .ok d.finish

def ofToml (text : String) : Except ParseError Settings :=
  match Toml.document text.toList with
  | none => .error .malformed
  | some entries =>
    match tomlRecord.ofEntries entries with
    | .ok s => .ok s
    | .error e => .error (.values e)

end Settings

namespace ParseError

/-- The explanation of an error; none for a text that is no TOML. -/
def message? (text : String) : ParseError → Option String
  | .malformed => none
  | .values e => some ("failed to parse config: " ++ e.message text.toList)

end ParseError
end FaultCodec
