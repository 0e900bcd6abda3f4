import FaultCodec.Settings
import FaultCodec.Text.Utf8

/-!
# Overrides from the environment

An environment gives bytes to some of four variables. A value is effective when it is text and, for
the log format, the name of a format in any case. Effective values replace settings; an address
without a section makes one of defaults. All other values are ignored.
-/

namespace FaultCodec

/-- The variables that are set. -/
structure Environment where
  serviceName : Option (List UInt8) := none
  logLevel : Option (List UInt8) := none
  logFormat : Option (List UInt8) := none
  address : Option (List UInt8) := none
  deriving Repr, DecidableEq

/-- The effective values of an environment. -/
structure Override where
  serviceName : Option String := none
  logLevel : Option String := none
  logFormat : Option LogFormat := none
  address : Option String := none
  deriving Repr, DecidableEq

namespace LogFormat

/-- The format of a name, in upper or lower case. -/
def ofName? (name : String) : Option LogFormat :=
  let lower := String.ofList (name.toList.map Char.toLower)
  all.find? fun f => f.name = lower

end LogFormat

namespace Environment

def override (e : Environment) : Override where
  serviceName := e.serviceName.bind Text.Utf8.text?
  logLevel := e.logLevel.bind Text.Utf8.text?
  logFormat := (e.logFormat.bind Text.Utf8.text?).bind LogFormat.ofName?
  address := e.address.bind Text.Utf8.text?

end Environment

namespace RemoteRead

/-- Sets the address of a section, which is made of defaults where there is none. -/
def withAddress (section? : Option RemoteRead) (address : String) : RemoteRead :=
  match section? with
  | some r => { r with address }
  | none => { address }

end RemoteRead

namespace Override

def apply (o : Override) (s : Settings) : Settings where
  serviceName := o.serviceName.getD s.serviceName
  logLevel := o.logLevel.getD s.logLevel
  logFormat := o.logFormat.getD s.logFormat
  remoteRead := match o.address with
    | some address => some (RemoteRead.withAddress s.remoteRead address)
    | none => s.remoteRead

/-- The later of two overrides counts where it sets a value. -/
def andThen (first second : Override) : Override where
  serviceName := second.serviceName.or first.serviceName
  logLevel := second.logLevel.or first.logLevel
  logFormat := second.logFormat.or first.logFormat
  address := second.address.or first.address

end Override

def Settings.under (s : Settings) (e : Environment) : Settings := e.override.apply s

end FaultCodec
