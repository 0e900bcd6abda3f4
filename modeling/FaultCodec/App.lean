import FaultCodec.App.Closer
import FaultCodec.App.Dispatcher

/-!
# Apps

An app is a service with a name, a dispatcher of its own and closers that are still to run. Settings
are checked before an app is started with them, and what is said while it starts goes to its own
dispatcher. Its closers run when it is closed or dropped, and their events go there as well.
-/

namespace FaultCodec

structure App where
  serviceName : String
  dispatcher : Dispatcher
  closers : List Closer := []

inductive StartError where
  | settings (reasons : List Reason)
  | filter (directive : String) (e : Log.FilterError)
  deriving Repr, DecidableEq

def StartError.message : StartError → String
  | .settings reasons => Reason.summary reasons
  | .filter directive e => e.refusal directive

/-- The sink of settings, or the refusal of their log filter. -/
def Sink.build (read : Log.FilterReader) (s : Settings) : Except StartError Sink :=
  (ofSettingsWith read s).mapError (.filter s.logLevel)

namespace App

def adviceEvent (service : String) (w : Warning) : Log.Event where
  level := .warn
  target := "wirex_app"
  message := "config warning"
  fields := [("service", .text service), ("warning", .text w.message)]

def startedEvent (s : Settings) : Log.Event where
  level := .info
  target := "wirex_app"
  message := "app initialised"
  fields := [("service", .text s.serviceName), ("log_format", .text s.logFormat.label),
    ("remote_read", .flag s.remoteRead.isSome)]

/-- Starts an app, whose dispatcher gets the given number. The log filter is read twice: where the
settings are checked, and where the sink is made. -/
def start (read : Log.FilterReader) (id : Nat) (s : Settings) :
    Except StartError (Log.Logged App) :=
  match s.validateWith read.diagnose with
  | .error reasons => .error (.settings reasons)
  | .ok warnings =>
    (Sink.build read s).map fun sink =>
      ⟨{ serviceName := s.serviceName, dispatcher := ⟨id, sink⟩ },
        warnings.map (adviceEvent s.serviceName) ++ [startedEvent s]⟩

/-- Registers a closer behind those that are there. -/
def onClose (a : App) (c : Closer) : App := { a with closers := a.closers ++ [c] }

def pending (a : App) : Nat := a.closers.length

def inspect (a : App) : String :=
  "App \x7b service_name: " ++ Text.quote a.serviceName ++ ", pending_closers: " ++
    toString a.pending ++ " \x7d"

/-- Runs the closers, and gives the app that is left without them. -/
def runClosers (a : App) : Log.Logged (List Closer.Run × App) :=
  (Closer.runAll a.serviceName a.closers).bind fun runs => .quiet (runs, { a with closers := [] })

/-- Drops an app: closers that it still has are run, and their failures are forgotten. -/
def drop (a : App) : Log.Logged (List Closer.Run) :=
  if a.closers.isEmpty then .quiet []
  else a.runClosers.bind fun (runs, _) => .quiet runs

/-- What closing an app comes to: the closers that have run, and the error if some have failed. -/
structure Closing where
  runs : List Closer.Run
  error? : Option CloseError
  deriving Repr, DecidableEq

/-- Closes an app: its closers are run, and what is left of it is dropped. -/
def close (a : App) : Log.Logged Closing :=
  a.runClosers.bind fun (runs, left) =>
    left.drop.bind fun more => .quiet ⟨runs ++ more, CloseError.ofRuns runs⟩

@[simp] theorem pending_onClose (a : App) (c : Closer) : (a.onClose c).pending = a.pending + 1 := by
  simp [onClose, pending]

end App
end FaultCodec
