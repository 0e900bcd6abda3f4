/-!
# Settings

The settings of a service: its name, a log filter, a log format and possibly a remote-read section.
Every field but the address of the section has a default.
-/

namespace FaultCodec

inductive LogFormat where
  | text
  | json
  deriving Repr, DecidableEq

namespace LogFormat

def all : List LogFormat := [text, json]

def name : LogFormat → String
  | text => "text"
  | json => "json"

def label : LogFormat → String
  | text => "Text"
  | json => "Json"

end LogFormat

/-- How a remote service is queried; times are in seconds. -/
structure RemoteRead where
  address : String
  timeout : UInt64 := 30
  keepAlive : UInt64 := 30
  maxIdleConns : UInt64 := 10
  maxConns : UInt64 := 100
  clientName : String := "wirex"
  deriving Repr, DecidableEq

structure Settings where
  serviceName : String := "wirex"
  logLevel : String := "info"
  logFormat : LogFormat := .text
  remoteRead : Option RemoteRead := none
  deriving Repr, DecidableEq

namespace Settings

/-- Every field at its default. -/
def standard : Settings := {}

/-- The overlay's value, unless it is the default. -/
def pick {α : Type} [DecidableEq α] (standard base overlay : α) : α :=
  if overlay ≠ standard then overlay else base

/-- Lays one configuration over another. A field of the overlay counts where it differs from its
default, and the section as a whole where there is one. -/
def merge (base overlay : Settings) : Settings where
  serviceName := pick standard.serviceName base.serviceName overlay.serviceName
  logLevel := pick standard.logLevel base.logLevel overlay.logLevel
  logFormat := pick standard.logFormat base.logFormat overlay.logFormat
  remoteRead := overlay.remoteRead.or base.remoteRead

@[simp] theorem pick_self {α : Type} [DecidableEq α] (standard a : α) : pick standard a a = a := by
  simp [pick]

@[simp] theorem pick_standard {α : Type} [DecidableEq α] (standard a : α) :
    pick standard a standard = a := by
  simp [pick]

end Settings
end FaultCodec
