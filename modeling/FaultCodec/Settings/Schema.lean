import FaultCodec.Json.Value
import FaultCodec.Settings.Draft

/-!
# The JSON schema of settings

The schema describes what settings may look like as JSON. Its defaults are the fields of standard
settings themselves, so that the schema cannot disagree with them.
-/

namespace FaultCodec
namespace Settings
namespace Schema

/-- The members of a schema for a field of some type, with a default unless the field is
required. -/
def member (type description : String) (standard? : Option Json.Value)
    (more : List (String × Json.Value)) : Json.Value :=
  .object ([("description", .string description), ("type", .string type)] ++
    (match standard? with
      | none => []
      | some v => [("default", v)]) ++ more)

def text (description : String) (standard? : Option String) : Json.Value :=
  member "string" description (standard?.map .string) []

def unsigned (format description : String) (standard : UInt64) : Json.Value :=
  member "integer" description (some (.number standard.toNat))
    [("format", .string format), ("minimum", .number 0)]

def table (description : String) (properties : List (String × Json.Value)) :
    List (String × Json.Value) :=
  [("description", .string description), ("type", .string "object"),
    ("properties", .object properties)]

def formatDescription : LogFormat → String
  | .text => "Human-readable lines."
  | .json => "One JSON object per event."

def format (f : LogFormat) : Json.Value :=
  .object [
    ("const", .string f.name),
    ("description", .string (formatDescription f)),
    ("type", .string "string")]

def logFormat : Json.Value :=
  .object [
    ("description", .string "Output format of the log subscriber."),
    ("oneOf", .list (LogFormat.all.map format))]

/-- A section whose fields are at their defaults. -/
def plainSection : RemoteRead := { address := "" }

def remoteRead : Json.Value :=
  .object (table "Connection settings for the remote-read upstream." [
    ("address", text "Base URL; `/api/v1/read` is appended by the client." none),
    ("timeout_secs", unsigned "uint64" "Per-request timeout in seconds." plainSection.timeout),
    ("keep_alive_secs", unsigned "uint64" "TCP keep-alive in seconds." plainSection.keepAlive),
    ("max_idle_conns", unsigned "uint" "Idle connections kept in the pool."
      plainSection.maxIdleConns),
    ("max_conns", unsigned "uint" "Upper bound on open connections." plainSection.maxConns),
    ("client_name", text "Sent as the user agent." (some plainSection.clientName))] ++
    [("required", .list [.string "address"])])

/-- A schema that is defined under a name of its own. -/
def reference (name : String) : String × Json.Value := ("$ref", .string ("#/$defs/" ++ name))

end Schema

def schema : Json.Value :=
  .object ([("$schema", .string "https://json-schema.org/draft/2020-12/schema"),
      ("title", .string "AppConfig")] ++
    Schema.table "Top-level settings for a process hosting the codec." [
      ("service_name", Schema.text "Service name attached to every log line."
        (some standard.serviceName)),
      ("log_level", Schema.text
        ("Log filter directive in `EnvFilter` syntax (e.g. " ++
          "`\"info\"`,\n`\"warn,wirex_status=debug\"`).")
        (some standard.logLevel)),
      ("log_format", .object [
        Schema.reference "LogFormat",
        ("description", .string "Log output format."),
        ("default", .string standard.logFormat.name)]),
      ("remote_read", .object [
        ("description", .string "Upstream remote-read endpoint, if this process queries one."),
        ("anyOf", .list [
          .object [Schema.reference "RemoteReadConfig"],
          .object [("type", .string "null")]])])] ++
    [("$defs", .object [("LogFormat", Schema.logFormat), ("RemoteReadConfig", Schema.remoteRead)])])

end Settings
end FaultCodec
