import FaultCodec.Proofs.Host.Closers

/-!
# Where entries go

Over a run, the current dispatcher is that of the app behind the newest live guard, whatever has
become of this app since. It takes what is decoded; what apps log while they start and what their
closers log is taken by their own dispatchers instead, and leaves the current one as it was.

What a host puts back as its guards are dropped is compared with the apps that were entered: the
current dispatcher and the ones that the guards keep are those of the apps behind the guards, down
to no dispatcher at all.
-/

namespace FaultCodec
namespace Host

/-- The current dispatcher, and those that become the current one again as the guards are
dropped. -/
def scope (h : Host) : List (Option Dispatcher) := h.current? :: h.guards

@[simp] theorem scope_setCurrent (h : Host) (d : Dispatcher) :
    (h.setCurrent d).scope = some d :: h.scope := rfl

theorem scope_dropGuard_of_singleton {h : Host} {d? : Option Dispatcher} (hs : h.scope = [d?]) :
    h.dropGuard.scope = [d?] := by
  obtain ⟨hc, hg⟩ := List.cons_eq_cons.mp hs
  simp [scope, dropGuard, hc, hg]

theorem scope_dropGuard_of_cons {h : Host} {d? e? : Option Dispatcher}
    {rest : List (Option Dispatcher)} (hs : h.scope = d? :: e? :: rest) :
    h.dropGuard.scope = e? :: rest := by
  obtain ⟨_, hg⟩ := List.cons_eq_cons.mp hs
  simp [scope, dropGuard, hg]

@[simp] theorem scope_tearDown (h : Host) (answer : Answer) (a : App) (runs : List Closer.Run)
    (events : List Log.Event) : (h.tearDown answer a runs events).1.scope = h.scope := rfl

@[simp] theorem scope_dropApp (h : Host) (answer : Answer) (a : App) :
    (h.dropApp answer a).1.scope = h.scope := rfl

@[simp] theorem scope_replace (h : Host) (a : App) (entries : List Entry) :
    (h.replace a entries).1.scope = h.scope := by
  cases ha : h.app with
  | none =>
    simp only [replace, ha]
    rfl
  | some old =>
    simp only [replace, ha]
    rfl

namespace Move

def entered? (m : Move) : Option App :=
  match m.step with
  | .app .enter => m.host.app
  | _ => none

def entries (m : Move) : List Entry := (m.host.step m.step).2.entries

/-- The entries that an app makes while it starts. -/
def opening (m : Move) : List Entry :=
  match m.step with
  | .start s =>
    match App.start m.host.filters m.host.made s with
    | .ok started => started.value.dispatcher.take started.events
    | .error _ => []
  | _ => []

/-- What becomes of the apps behind the live guards, the newest guard first. -/
def guard (guarded : List App) (m : Move) : List App :=
  match m.step with
  | .leave => guarded.tail
  | _ => m.entered?.toList ++ guarded

theorem scope_next_of_entered {m : Move} {a : App} (h : m.entered? = some a) :
    m.next.scope = some a.dispatcher :: m.host.scope := by
  obtain ⟨host, step⟩ := m
  cases step with
  | app s =>
    cases s with
    | enter =>
      have ha : host.app = some a := h
      simp [next, Host.step, ha, stepApp]
    | _ => cases h
  | _ => cases h

/-- Whatever switches the dispatcher on the way has put it back when it is done. -/
theorem scope_next_of_not_entered {m : Move} (h : m.entered? = none) (hl : m.step ≠ .leave) :
    m.next.scope = m.host.scope := by
  obtain ⟨host, step⟩ := m
  cases step with
  | start s => cases hs : App.start host.filters host.made s <;> simp [next, Host.step, hs]
  | adopt serviceName sink => simp [next, Host.step]
  | leave => exact absurd rfl hl
  | decode s => rfl
  | app s =>
    cases ha : host.app with
    | none => simp [next, Host.step, ha]
    | some a =>
      cases s with
      | enter =>
        have hn : host.app = none := h
        simp [hn] at ha
      | onClose | pending | serviceName | inspect => simp [next, Host.step, ha, stepApp, scope]
      | close | drop => simp [next, Host.step, ha, stepApp]

theorem guard_of_entered {m : Move} {a : App} (h : m.entered? = some a) (guarded : List App) :
    m.guard guarded = a :: guarded := by
  obtain ⟨host, step⟩ := m
  cases step with
  | leave => cases h
  | _ => simp [guard, h]

theorem guard_of_not_entered {m : Move} (h : m.entered? = none) (hl : m.step ≠ .leave)
    (guarded : List App) : m.guard guarded = guarded := by
  obtain ⟨host, step⟩ := m
  cases step with
  | leave => exact absurd rfl hl
  | _ => simp [guard, h]

end Move

/-- The apps behind the guards that are live after some moves, the newest guard first. A guard is
made where an app is entered, and leaving drops the newest one; nothing else touches it. -/
def guarded (ms : List Move) : List App := ms.foldl Move.guard []

theorem guarded_concat (ms : List Move) (m : Move) :
    guarded (ms ++ [m]) = m.guard (guarded ms) := by
  simp [guarded]

section Runs

variable (filters : Log.FilterReader)

/-- The dispatchers of the apps behind the live guards, down to no dispatcher. -/
theorem scope_after (steps : List Step) :
    (after { filters } steps).scope =
      (guarded (moves { filters } steps)).map (fun a => some a.dispatcher) ++ [none] := by
  induction steps using List.reverseRecOn with
  | nil => rfl
  | append_singleton steps s ih =>
    rw [after_concat, moves_concat, guarded_concat]
    cases he : Move.entered? ⟨after { filters } steps, s⟩ with
    | some a =>
      rw [Move.scope_next_of_entered he, Move.guard_of_entered he, ih]
      rfl
    | none =>
      by_cases hl : s = .leave
      · subst hl
        change (after { filters } steps).dropGuard.scope =
          (guarded (moves { filters } steps)).tail.map (fun a => some a.dispatcher) ++ [none]
        cases hg : guarded (moves { filters } steps) with
        | nil =>
          rw [hg] at ih
          exact scope_dropGuard_of_singleton ih
        | cons a rest =>
          rw [hg] at ih
          -- what the newest guard puts back is the dispatcher of the next one, if there is one
          cases rest with
          | nil => exact scope_dropGuard_of_cons ih
          | cons b rest => exact scope_dropGuard_of_cons ih
      · rw [Move.scope_next_of_not_entered he hl, Move.guard_of_not_entered he hl, ih]

theorem current?_after (steps : List Step) :
    (after { filters } steps).current? =
      (guarded (moves { filters } steps)).head?.map App.dispatcher := by
  have hs := congrArg List.head? (scope_after filters steps)
  cases hg : guarded (moves { filters } steps) with
  | nil => simpa [scope, hg] using hs
  | cons a rest => simpa [scope, hg] using hs

end Runs

theorem entries_replace (h : Host) (a : App) (entries : List Entry) :
    (h.replace a entries).2.entries =
      entries ++ h.app.elim [] fun old => old.dispatcher.take old.closingEvents := by
  cases ha : h.app with
  | none => simp [replace, ha]
  | some old => simp [replace, ha, dropApp, tearDown, old.events_drop]

namespace Move

/-- Where an app ends, its own dispatcher takes what its closers log, behind what an app that takes
its place has logged. -/
theorem entries_of_ends {m : Move} (h : m.ends = true) :
    m.entries = m.opening ++
      m.host.app.elim [] fun a => a.dispatcher.take a.closingEvents := by
  obtain ⟨host, step⟩ := m
  cases step with
  | start s =>
    cases hs : App.start host.filters host.made s with
    | error e => simp [ends, builds, hs, Except.isOk, Except.toBool] at h
    | ok started => simp [entries, opening, Host.step, hs, entries_replace]
  | adopt serviceName sink => simp [entries, opening, Host.step, entries_replace]
  | leave | decode => cases h
  | app s =>
    cases ha : host.app with
    | none => cases s <;> simp [ends, builds, ha] at h
    | some a =>
      cases s with
      | close => simp [entries, opening, Host.step, ha, stepApp, tearDown, a.events_close]
      | drop => simp [entries, opening, Host.step, ha, stepApp, dropApp, tearDown, a.events_drop]
      | enter | onClose | pending | serviceName | inspect => cases h

theorem entries_of_not_ends {m : Move} (h : m.ends = false) (hd : ∀ t, m.step ≠ .decode t) :
    m.entries = [] := by
  obtain ⟨host, step⟩ := m
  cases step with
  | start s =>
    cases hs : App.start host.filters host.made s with
    | error e => simp [entries, Host.step, hs]
    | ok started => simp [ends, builds, hs, Except.isOk, Except.toBool] at h
  | adopt serviceName sink => cases h
  | leave => rfl
  | decode t => exact absurd rfl (hd t)
  | app s =>
    cases ha : host.app with
    | none => simp [entries, Host.step, ha]
    | some a =>
      cases s with
      | close | drop => simp [ends, ha] at h
      | enter | onClose | pending | serviceName | inspect => simp [entries, Host.step, ha, stepApp]

theorem dispatcher_of_mem_opening {m : Move} {x : Entry} (h : x ∈ m.opening) :
    ∃ b, m.next.app = some b ∧ x.dispatcher = b.dispatcher := by
  obtain ⟨host, step⟩ := m
  cases step with
  | start s =>
    cases hs : App.start host.filters host.made s with
    | error e => simp [opening, hs] at h
    | ok started =>
      simp only [opening, hs] at h
      refine ⟨started.value, ?_, Dispatcher.dispatcher_of_mem_take h⟩
      simp only [next, Host.step, hs]
      rfl
  | _ => cases h

end Move

/-- At any point of a run, and for any step that may follow: the current dispatcher is that of the
app behind the newest live guard, and there is none without a live guard. A step that neither enters
an app nor leaves one does not change it, though apps may start and closers run in it. What is
decoded is logged to the current dispatcher. Where an app ends, its own dispatcher takes what its
closers log, whoever is entered, and the dispatcher of an app that starts takes what that one logs.
No other step logs. A dispatcher takes just the events that its sink keeps, in their order. -/
theorem log_routing (filters : Log.FilterReader) (steps : List Step) (s : Step) :
    let live := guarded (moves { filters } steps)
    let m : Move := ⟨after { filters } steps, s⟩
    m.host.current? = live.head?.map App.dispatcher ∧
      (m.entered? = none → s ≠ .leave → m.next.current? = m.host.current?) ∧
      (∀ t, s = .decode t →
        m.entries = m.host.current?.elim [] fun d => d.take t.decode.events) ∧
      (m.ends = true →
        m.entries = m.opening ++
          m.host.app.elim [] fun a => a.dispatcher.take a.closingEvents) ∧
      (∀ x ∈ m.opening, ∃ b, m.next.app = some b ∧ x.dispatcher = b.dispatcher) ∧
      (m.ends = false → (∀ t, s ≠ .decode t) → m.entries = []) ∧
      ∀ (d : Dispatcher) es,
        (d.take es).map Entry.event = es.filter d.sink.keeps ∧
          ∀ x ∈ d.take es, x.dispatcher = d := by
  intro live m
  refine ⟨current?_after filters steps, ?_, ?_, Move.entries_of_ends,
    fun x => Move.dispatcher_of_mem_opening, Move.entries_of_not_ends,
    fun d es => ⟨d.events_take es, fun x => Dispatcher.dispatcher_of_mem_take⟩⟩
  · intro he hl
    have hs := Move.scope_next_of_not_entered (m := m) he hl
    exact (List.cons_eq_cons.mp hs).1
  · rintro t rfl
    rfl

/-- An app that has been replaced still takes what is decoded until its guard is dropped, but not
what a closer of the next app decodes. -/
example :
    let lost : Status := { code := .notFound, message := "gone" }
    let run := outcomes {} [.adopt "first" (.plain (some .trace)), .app .enter,
      .adopt "second" (.plain (some .trace)), .decode lost, .app (.onClose ⟨"a", .decodes lost⟩),
      .app .close, .leave, .decode lost]
    run.map (fun o => o.entries.map fun x => x.dispatcher.id) =
      [[], [], [], [0], [], [1, 1], [], []] := by
  decide

end Host
end FaultCodec
