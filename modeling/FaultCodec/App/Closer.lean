import FaultCodec.Status

/-!
# Closers

A closer is a step of the teardown of an app. It may fail, and what it does may log. Closers are run
in their order, whatever becomes of the others; every failure is logged behind what its closer has
logged itself.
-/

namespace FaultCodec

inductive Ending where
  | succeeds
  | fails (text : String)
  | faults (f : Fault)
  /-- A status is decoded; the closer fails with its fault, if there is one. -/
  | decodes (s : Status)
  deriving Repr, DecidableEq

/-- The text of the failure, if it fails. -/
def Ending.run : Ending → Log.Logged (Option String)
  | succeeds => .quiet none
  | fails text => .quiet (some text)
  | faults f => .quiet (some f.message)
  | decodes s => s.decode.bind fun f? => .quiet (f?.map Fault.message)

structure Closer where
  name : String
  ending : Ending
  deriving Repr, DecidableEq

namespace Closer

def warning (service name text : String) : Log.Event where
  level := .warn
  target := "wirex_app"
  message := "closer failed"
  fields := [("service", .text service), ("closer", .text name), ("error", .text text)]

/-- A closer that has run, and the text of its failure if it has failed. -/
structure Run where
  closer : Closer
  failure? : Option String
  deriving Repr, DecidableEq

/-- Runs a closer; a failure is logged. -/
def run (service : String) (c : Closer) : Log.Logged Run :=
  c.ending.run.bind fun text? =>
    ⟨⟨c, text?⟩, (text?.map (warning service c.name)).toList⟩

def runAll (service : String) : List Closer → Log.Logged (List Run)
  | [] => .quiet []
  | c :: cs => (c.run service).bind fun r =>
      (runAll service cs).bind fun rs => .quiet (r :: rs)

@[simp] theorem value_run (service : String) (c : Closer) :
    (c.run service).value = ⟨c, c.ending.run.value⟩ := rfl

@[simp] theorem value_runAll (service : String) (cs : List Closer) :
    (runAll service cs).value = cs.map fun c => ⟨c, c.ending.run.value⟩ := by
  induction cs with
  | nil => rfl
  | cons c cs ih => simp [runAll, ih]

end Closer

structure CloseError where
  failures : List String
  deriving Repr, DecidableEq

namespace CloseError

/-- The texts with their numbers, from the given one on. -/
def numbered (n : Nat) : List String → List String
  | [] => []
  | text :: texts => ("error " ++ toString n ++ ": " ++ text) :: numbered (n + 1) texts

def message (e : CloseError) : String := Text.joinWith ", " (numbered 1 e.failures)

def inspect (e : CloseError) : String :=
  "CloseError \x7b failures: " ++ Text.quoteList e.failures ++ " \x7d"

/-- The error of some failures; none for no failures. -/
def ofFailures : List String → Option CloseError
  | [] => none
  | texts => some ⟨texts⟩

def ofRuns (runs : List Closer.Run) : Option CloseError :=
  ofFailures (runs.filterMap Closer.Run.failure?)

theorem ofFailures_eq_none_iff (texts : List String) : ofFailures texts = none ↔ texts = [] := by
  cases texts <;> simp [ofFailures]

end CloseError
end FaultCodec
