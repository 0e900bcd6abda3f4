import FaultCodec.Settings

/-!
# Settings that are being read

While a document is read, the fields that have been found are gathered in a draft. A draft is
finished by the defaults of the fields that were not found; only the address of a section has none.
-/

namespace FaultCodec

structure RemoteRead.Draft where
  address : Option String := none
  timeout : Option UInt64 := none
  keepAlive : Option UInt64 := none
  maxIdleConns : Option UInt64 := none
  maxConns : Option UInt64 := none
  clientName : Option String := none
  deriving Repr, DecidableEq

/-- The section of a draft, or the name of the field that it lacks. -/
def RemoteRead.Draft.finish (d : RemoteRead.Draft) : Except String RemoteRead :=
  match d.address with
  | none => .error "address"
  | some address =>
    let standard : RemoteRead := { address }
    .ok {
      address
      timeout := d.timeout.getD standard.timeout
      keepAlive := d.keepAlive.getD standard.keepAlive
      maxIdleConns := d.maxIdleConns.getD standard.maxIdleConns
      maxConns := d.maxConns.getD standard.maxConns
      clientName := d.clientName.getD standard.clientName }

structure Settings.Draft where
  serviceName : Option String := none
  logLevel : Option String := none
  logFormat : Option LogFormat := none
  remoteRead : Option (Option RemoteRead) := none
  deriving Repr, DecidableEq

def Settings.Draft.finish (d : Settings.Draft) : Settings where
  serviceName := d.serviceName.getD Settings.standard.serviceName
  logLevel := d.logLevel.getD Settings.standard.logLevel
  logFormat := d.logFormat.getD Settings.standard.logFormat
  remoteRead := d.remoteRead.getD Settings.standard.remoteRead

/-- The names of settings in documents. -/
def RemoteRead.title : String := "struct RemoteReadConfig"

def Settings.title : String := "struct AppConfig"

def LogFormat.choices : List (String × LogFormat) := LogFormat.all.map fun f => (f.name, f)

end FaultCodec
