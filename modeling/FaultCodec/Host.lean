import FaultCodec.App

/-!
# Hosts

A host is a process with at most one app, and what it logs goes to its current dispatcher. Entering
an app makes the dispatcher of the app the current one; the guard keeps the one before and puts it
back when it is dropped, whether or not the app is still there. An app that starts, and closers that
run, do so under the dispatcher of their app, by a guard that is dropped in the same step. Every
step gives an answer, the closers that have run and the entries that dispatchers have taken, all in
order. An app that takes the place of another one is built before the other one is dropped.
-/

namespace FaultCodec

structure Host where
  app : Option App := none
  /-- The dispatcher that takes what is logged, if there is one. -/
  current? : Option Dispatcher := none
  /-- What the live guards put back, the newest guard first. -/
  guards : List (Option Dispatcher) := []
  /-- The number of dispatchers that have been made. -/
  made : Nat := 0
  /-- What reads the log filters of settings. -/
  filters : Log.FilterReader := Log.FilterReader.directives

namespace Host

/-- A step for which there has to be an app. -/
inductive AppStep where
  | enter
  | onClose (c : Closer)
  | pending
  | serviceName
  | inspect
  | close
  | drop
  deriving Repr, DecidableEq

inductive Step where
  /-- Starts an app with settings. -/
  | start (s : Settings)
  /-- Makes an app of a name and a sink. -/
  | adopt (serviceName : String) (sink : Sink)
  | app (s : AppStep)
  /-- Drops the newest guard. -/
  | leave
  | decode (s : Status)

inductive Answer where
  | built
  | refused (e : StartError)
  | noApp
  | entered
  /-- Whether there was a guard to drop. -/
  | left (wasGuarded : Bool)
  | decoded (f? : Option Fault)
  | count (n : Nat)
  | text (s : String)
  | closed
  | failed (e : CloseError)
  | dropped
  deriving Repr, DecidableEq

structure Outcome where
  answer : Answer
  ran : List Closer := []
  entries : List Entry := []

/-- Makes a dispatcher the current one, under a new guard. -/
def setCurrent (h : Host) (d : Dispatcher) : Host :=
  { h with current? := some d, guards := h.current? :: h.guards }

/-- Drops the newest guard, if there is one. -/
def dropGuard (h : Host) : Host :=
  { h with current? := h.guards.headD h.current?, guards := h.guards.tail }

def enables (h : Host) (target : String) (l : Log.Level) : Bool :=
  h.current?.elim false fun d => d.sink.enables target l

@[simp] theorem app_setCurrent (h : Host) (d : Dispatcher) : (h.setCurrent d).app = h.app := rfl

/-- The entries that the current dispatcher makes of events. -/
def log (h : Host) (es : List Log.Event) : List Entry := h.current?.elim [] fun d => d.take es

/-- What is logged while a dispatcher is made the current one, and the host behind that. -/
def logUnder (h : Host) (d : Dispatcher) (es : List Log.Event) : Host × List Entry :=
  let inside := h.setCurrent d
  (inside.dropGuard, inside.log es)

/-- The guard is dropped again, so the current dispatcher is what it was. -/
@[simp] theorem logUnder_eq (h : Host) (d : Dispatcher) (es : List Log.Event) :
    h.logUnder d es = (h, d.take es) := rfl

def closers (h : Host) : List Closer := h.app.elim [] App.closers

def closeAnswer : Option CloseError → Answer
  | none => .closed
  | some e => .failed e

/-- The end of an app: what its closers log is logged under its own dispatcher. -/
def tearDown (h : Host) (answer : Answer) (a : App) (runs : List Closer.Run)
    (events : List Log.Event) : Host × Outcome :=
  let (h, entries) := h.logUnder a.dispatcher events
  ({ h with app := none }, { answer := answer, ran := runs.map Closer.Run.closer, entries })

@[simp] theorem app_tearDown (h : Host) (answer : Answer) (a : App) (runs : List Closer.Run)
    (events : List Log.Event) : (h.tearDown answer a runs events).1.app = none := rfl

def dropApp (h : Host) (answer : Answer) (a : App) : Host × Outcome :=
  h.tearDown answer a a.drop.value a.drop.events

@[simp] theorem app_dropApp (h : Host) (answer : Answer) (a : App) :
    (h.dropApp answer a).1.app = none := rfl

/-- Puts a new app, which has made the given entries, in the place of the old one, which is
dropped. -/
def replace (h : Host) (a : App) (entries : List Entry) : Host × Outcome :=
  let (h, old) := h.app.elim (h, { answer := .built }) (h.dropApp .built)
  ({ h with app := some a, made := h.made + 1 }, { old with entries := entries ++ old.entries })

def stepApp (h : Host) (a : App) : AppStep → Host × Outcome
  | .enter => (h.setCurrent a.dispatcher, { answer := .entered })
  | .onClose c =>
    let a := a.onClose c
    ({ h with app := some a }, { answer := .count a.pending })
  | .pending => (h, { answer := .count a.pending })
  | .serviceName => (h, { answer := .text a.serviceName })
  | .inspect => (h, { answer := .text a.inspect })
  | .close =>
    let closed := a.close
    h.tearDown (closeAnswer closed.value.error?) a closed.value.runs closed.events
  | .drop => h.dropApp .dropped a

def step (h : Host) : Step → Host × Outcome
  | .start s =>
    match App.start h.filters h.made s with
    | .error e => (h, { answer := .refused e })
    | .ok started =>
      let (h, entries) := h.logUnder started.value.dispatcher started.events
      h.replace started.value entries
  | .adopt serviceName sink => h.replace { serviceName, dispatcher := ⟨h.made, sink⟩ } []
  | .leave => (h.dropGuard, { answer := .left !h.guards.isEmpty })
  | .decode s =>
    let decoded := s.decode
    (h, { answer := .decoded decoded.value, entries := h.log decoded.events })
  | .app s =>
    match h.app with
    | none => (h, { answer := .noApp })
    | some a => h.stepApp a s

def after (h : Host) : List Step → Host
  | [] => h
  | s :: steps => (h.step s).1.after steps

def outcomes (h : Host) : List Step → List Outcome
  | [] => []
  | s :: steps => (h.step s).2 :: (h.step s).1.outcomes steps

@[simp] theorem filters_replace (h : Host) (a : App) (entries : List Entry) :
    (h.replace a entries).1.filters = h.filters := by
  cases ha : h.app <;> simp only [replace, ha] <;> rfl

@[simp] theorem filters_step (h : Host) (s : Step) : (h.step s).1.filters = h.filters := by
  cases s with
  | start s => cases hs : App.start h.filters h.made s <;> simp [step, hs]
  | adopt serviceName sink => simp [step]
  | leave | decode => rfl
  | app s =>
    cases ha : h.app with
    | none => simp [step, ha]
    | some a => cases s <;> simp only [step, ha] <;> rfl

@[simp] theorem filters_after (h : Host) (steps : List Step) :
    (h.after steps).filters = h.filters := by
  induction steps generalizing h with
  | nil => rfl
  | cons s steps ih => rw [after, ih, filters_step]

theorem after_append (h : Host) (steps more : List Step) :
    h.after (steps ++ more) = (h.after steps).after more := by
  induction steps generalizing h with
  | nil => rfl
  | cons s steps ih => exact ih _

end Host
end FaultCodec
