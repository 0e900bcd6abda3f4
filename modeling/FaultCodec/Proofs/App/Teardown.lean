import FaultCodec.App

/-!
# The teardown of an app

Whether an app is closed or dropped, its closers run once each and in the order in which they were
registered, and the same is logged. How a closer ends is up to that closer alone. An app whose
closers have run has none left, so nothing more runs when it is dropped.
-/

namespace FaultCodec

/-- What closers log comes one closer after the other. -/
theorem Closer.events_runAll (service : String) (cs : List Closer) :
    (Closer.runAll service cs).events = cs.flatMap fun c => (c.run service).events := by
  induction cs with
  | nil => rfl
  | cons c cs ih => simp [Closer.runAll, ih]

namespace App

@[simp] theorem closers_runClosers (a : App) : a.runClosers.value.2.closers = [] := rfl

/-- No closer is left out, or ends in another way, because of how another one ends. -/
theorem runs_runClosers (a : App) :
    a.runClosers.value.1 = a.closers.map fun c => ⟨c, c.ending.run.value⟩ :=
  Closer.value_runAll a.serviceName a.closers

theorem drop_of_closers_eq_nil {a : App} (h : a.closers = []) : a.drop = .quiet [] := by
  simp [drop, h]

@[simp] theorem drop_runClosers (a : App) : a.runClosers.value.2.drop = .quiet [] :=
  drop_of_closers_eq_nil a.closers_runClosers

theorem runs_drop (a : App) :
    a.drop.value = a.closers.map fun c => ⟨c, c.ending.run.value⟩ := by
  by_cases h : a.closers = []
  · rw [drop_of_closers_eq_nil h, h]
    rfl
  · have hd : a.drop.value = a.runClosers.value.1 := by
      simp [drop, h]
    rw [hd, runs_runClosers]

theorem runs_close (a : App) :
    a.close.value.runs = a.closers.map fun c => ⟨c, c.ending.run.value⟩ := by
  have hc : a.close.value.runs = a.runClosers.value.1 := by
    simp [close]
  rw [hc, runs_runClosers]

theorem closers_drop (a : App) : a.drop.value.map Closer.Run.closer = a.closers := by
  simp [a.runs_drop, Function.comp_def]

theorem closers_close (a : App) : a.close.value.runs.map Closer.Run.closer = a.closers := by
  simp [a.runs_close, Function.comp_def]

/-- What the closers of an app log while they run. -/
def closingEvents (a : App) : List Log.Event :=
  a.closers.flatMap fun c => (c.run a.serviceName).events

theorem events_runClosers (a : App) : a.runClosers.events = a.closingEvents := by
  simp [runClosers, Closer.events_runAll, closingEvents]

theorem events_drop (a : App) : a.drop.events = a.closingEvents := by
  by_cases h : a.closers = []
  · rw [drop_of_closers_eq_nil h, closingEvents, h]
    rfl
  · have hd : a.drop.events = a.runClosers.events := by
      simp [drop, h]
    rw [hd, events_runClosers]

theorem events_close (a : App) : a.close.events = a.closingEvents := by
  have hc : a.close.events = a.runClosers.events := by
    simp [close]
  rw [hc, events_runClosers]

theorem closers_of_start {read : Log.FilterReader} {id : Nat} {s : Settings}
    {started : Log.Logged App} (h : start read id s = .ok started) :
    started.value.closers = [] := by
  unfold start at h
  split at h
  · cases h
  · cases hb : Sink.build read s with
    | error x =>
      rw [hb] at h
      cases h
    | ok sink =>
      rw [hb] at h
      cases h
      rfl

end App
end FaultCodec
