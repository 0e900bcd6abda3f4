import FaultCodec.Host
import FaultCodec.Proofs.App.Teardown
import Mathlib.Data.List.DropRight

/-!
# Every closer runs once

A run of a host is the list of its moves. The closers that were registered during a run are those
that have run by then and those of the present app, in this order: none runs twice, and none is
lost. They run when their app is closed, dropped or replaced, all in one move, and in no other move.
-/

namespace FaultCodec
namespace Host

/-- A step, and the host that takes it. -/
structure Move where
  host : Host
  step : Step

namespace Move

def next (m : Move) : Host := (m.host.step m.step).1

/-- The closers that run. -/
def ran (m : Move) : List Closer := (m.host.step m.step).2.ran

/-- The closer that is registered; without an app there is nothing to register it on. -/
def registered? (m : Move) : Option Closer :=
  match m.step with
  | .app (.onClose c) => m.host.app.map fun _ => c
  | _ => none

/-- Whether an app is built; settings may be refused. -/
def builds (m : Move) : Bool :=
  match m.step with
  | .start s => (App.start m.host.filters m.host.made s).isOk
  | .adopt _ _ => true
  | _ => false

/-- Whether the app that is there is closed or dropped, or gives way to one that is built. -/
def ends (m : Move) : Bool :=
  match m.step with
  | .app .close => m.host.app.isSome
  | .app .drop => m.host.app.isSome
  | _ => m.builds

/-- What becomes of the app and its closers. -/
inductive Effect (m : Move) : Prop
  | builds (a : App) (hbuilds : m.builds = true) (hends : m.ends = true)
      (hregistered : m.registered? = none) (hran : m.ran = m.host.closers)
      (happ : m.next.app = some a) (hclosers : a.closers = [])
  | ends (hbuilds : m.builds = false) (hends : m.ends = true)
      (hregistered : m.registered? = none) (hran : m.ran = m.host.closers)
      (happ : m.next.app = none)
  | registers (a : App) (c : Closer) (hbuilds : m.builds = false) (hends : m.ends = false)
      (hregistered : m.registered? = some c) (hran : m.ran = [])
      (hhost : m.host.app = some a) (happ : m.next.app = some (a.onClose c))
  | keeps (hbuilds : m.builds = false) (hends : m.ends = false)
      (hregistered : m.registered? = none) (hran : m.ran = [])
      (happ : m.next.app = m.host.app)

end Move

theorem ran_replace (h : Host) (a : App) (entries : List Entry) :
    (h.replace a entries).2.ran = h.closers := by
  cases ha : h.app with
  | none => simp [replace, closers, ha]
  | some old =>
    simp [replace, closers, ha, dropApp, tearDown, old.closers_drop]

namespace Move

theorem effect_replace {m : Move} {a : App} {entries : List Entry} (hbuilds : m.builds = true)
    (hends : m.ends = true) (hregistered : m.registered? = none) (hclosers : a.closers = [])
    (h : m.host.step m.step = m.host.replace a entries) : m.Effect := by
  refine .builds a hbuilds hends hregistered ?_ ?_ hclosers
  · rw [ran, h, ran_replace]
  · rw [next, h]
    rfl

theorem effect_app (h : Host) (s : AppStep) : Effect ⟨h, .app s⟩ := by
  cases ha : h.app with
  | none =>
    have hs : h.step (.app s) = (h, { answer := .noApp }) := by
      simp [Host.step, ha]
    cases s <;>
      exact .keeps rfl (by simp [ends, builds, ha]) (by simp [registered?, ha])
        (by simp [ran, hs]) (by simp [next, hs])
  | some a =>
    have hs : h.step (.app s) = h.stepApp a s := by
      simp [Host.step, ha]
    have hc : h.closers = a.closers := by
      simp [closers, ha]
    cases s with
    | onClose c =>
      exact .registers a c rfl rfl (by simp [registered?, ha]) (by simp [ran, hs, stepApp]) ha
        (by simp [next, hs, stepApp])
    | close =>
      refine .ends rfl (by simp [ends, ha]) rfl ?_ (by simp [next, hs, stepApp])
      simp only [ran, hs, stepApp, tearDown, hc, a.closers_close]
    | drop =>
      refine .ends rfl (by simp [ends, ha]) rfl ?_ (by simp [next, hs, stepApp])
      simp only [ran, hs, stepApp, dropApp, tearDown, hc, a.closers_drop]
    | enter | pending | serviceName | inspect =>
      exact .keeps rfl rfl rfl (by simp [ran, hs, stepApp]) (by simp [next, hs, stepApp, ha])

/-- Every move has one of these effects; all that follows about runs is read off this. -/
theorem effect (m : Move) : m.Effect := by
  obtain ⟨h, s⟩ := m
  cases s with
  | start s =>
    cases hs : App.start h.filters h.made s with
    | error e =>
      have hb : builds ⟨h, .start s⟩ = false := by
        simp [builds, hs, Except.isOk, Except.toBool]
      exact .keeps hb hb rfl (by simp [ran, Host.step, hs]) (by simp [next, Host.step, hs])
    | ok started =>
      have hb : builds ⟨h, .start s⟩ = true := by
        simp [builds, hs, Except.isOk, Except.toBool]
      -- closers are registered on an app, never brought along by its settings
      apply effect_replace hb hb rfl (App.closers_of_start hs)
      simp only [Host.step, hs]
      rfl
  | adopt serviceName sink => exact effect_replace rfl rfl rfl rfl rfl
  | leave | decode => exact .keeps rfl rfl rfl rfl rfl
  | app s => exact effect_app h s

theorem ran_append_closers (m : Move) :
    m.ran ++ m.next.closers = m.host.closers ++ m.registered?.toList := by
  cases m.effect with
  | builds a _ _ hregistered hran happ hclosers => simp [hran, hregistered, closers, happ, hclosers]
  | ends _ _ hregistered hran happ => simp [hran, hregistered, closers, happ]
  | registers a c _ _ hregistered hran hhost happ =>
    simp [hran, hregistered, closers, happ, hhost, App.onClose]
  | keeps _ _ hregistered hran happ => simp [hran, hregistered, closers, happ]

theorem closers_next_of_ends {m : Move} (h : m.ends = true) : m.next.closers = [] := by
  cases m.effect with
  | builds a _ _ _ _ happ hclosers => simp [closers, happ, hclosers]
  | ends _ _ _ _ happ => simp [closers, happ]
  | registers a c _ hends => simp [hends] at h
  | keeps _ hends => simp [hends] at h

theorem ran_of_ends {m : Move} (h : m.ends = true) : m.ran = m.host.closers := by
  cases m.effect with
  | builds a _ _ _ hran => exact hran
  | ends _ _ _ hran => exact hran
  | registers a c _ hends => simp [hends] at h
  | keeps _ hends => simp [hends] at h

theorem ran_of_not_ends {m : Move} (h : m.ends = false) : m.ran = [] := by
  cases m.effect with
  | builds a _ hends => simp [hends] at h
  | ends _ hends => simp [hends] at h
  | registers a c _ _ _ hran => exact hran
  | keeps _ _ _ hran => exact hran

end Move

def moves (h : Host) : List Step → List Move
  | [] => []
  | s :: steps => ⟨h, s⟩ :: (h.step s).1.moves steps

/-- The closers that were registered, in the order of their registrations. -/
def registered (ms : List Move) : List Closer := ms.filterMap Move.registered?

/-- The closers that have run, in the order in which they did. -/
def ran (ms : List Move) : List Closer := ms.flatMap Move.ran

/-- The moves since an app was built last. -/
def sinceBuilt (ms : List Move) : List Move := ms.rtakeWhile fun m => !m.builds

theorem moves_concat (h : Host) (steps : List Step) (s : Step) :
    h.moves (steps ++ [s]) = h.moves steps ++ [⟨h.after steps, s⟩] := by
  induction steps generalizing h with
  | nil => rfl
  | cons first steps ih => simp [moves, after, ih]

theorem after_concat (h : Host) (steps : List Step) (s : Step) :
    h.after (steps ++ [s]) = Move.next ⟨h.after steps, s⟩ := by
  rw [after_append]
  rfl

theorem registered_concat (ms : List Move) (m : Move) :
    registered (ms ++ [m]) = registered ms ++ m.registered?.toList := by
  cases hm : m.registered? <;> simp [registered, hm]

/-- Over a run, what has run and what is left are what was there and what was registered. -/
theorem ran_append_closers (h : Host) (steps : List Step) :
    ran (h.moves steps) ++ (h.after steps).closers = h.closers ++ registered (h.moves steps) := by
  induction steps using List.reverseRecOn with
  | nil => simp [moves, after, ran, registered]
  | append_singleton steps s ih =>
    have hm := Move.ran_append_closers ⟨h.after steps, s⟩
    have hr : ran (h.moves (steps ++ [s])) =
        ran (h.moves steps) ++ Move.ran ⟨h.after steps, s⟩ := by
      simp [moves_concat, ran]
    calc ran (h.moves (steps ++ [s])) ++ (h.after (steps ++ [s])).closers
        = ran (h.moves steps) ++ ((h.after steps).closers ++
            (Move.registered? ⟨h.after steps, s⟩).toList) := by
          rw [hr, after_concat, List.append_assoc, hm]
      _ = h.closers ++ registered (h.moves (steps ++ [s])) := by
          rw [← List.append_assoc, ih, moves_concat, registered_concat, List.append_assoc]

theorem closers_eq_registered {filters : Log.FilterReader} {steps : List Step} {a : App}
    (ha : (after { filters } steps).app = some a) :
    a.closers = registered (sinceBuilt (moves { filters } steps)) := by
  -- on the last step, since the moves that count are those behind the last one that built an app
  induction steps using List.reverseRecOn generalizing a with
  | nil => cases ha
  | append_singleton steps s ih =>
    rw [after_concat] at ha
    rw [moves_concat, sinceBuilt, List.rtakeWhile_concat]
    cases Move.effect ⟨after { filters } steps, s⟩ with
    | builds b hbuilds _ _ _ happ hclosers =>
      rw [happ] at ha
      cases ha
      simp [hbuilds, hclosers, registered]
    | ends _ _ _ _ happ =>
      rw [happ] at ha
      cases ha
    | registers b c hbuilds _ hregistered _ hhost happ =>
      rw [happ] at ha
      cases ha
      have hb := ih hhost
      simp only [hbuilds, Bool.not_false, if_true, registered_concat, hregistered]
      rw [App.onClose, hb]
      rfl
    | keeps hbuilds _ hregistered _ happ =>
      rw [happ] at ha
      have hb := ih ha
      simp only [hbuilds, Bool.not_false, if_true, registered_concat, hregistered]
      rw [hb]
      simp [sinceBuilt]

/-- At any point of a run, and for any step that may follow: the closers that were registered are
those that have run and then those that are pending, each in the place of its registration; what is
pending is what was registered since the app was built. Nothing runs in a step that does not end an
app. A step that ends one leaves nothing pending, so all that was registered has run by then, and
what runs in it is what was registered on that app, in this order. Closed or dropped, an app takes
each of its closers to the end that this closer has by itself. An app whose closers have run does
nothing more when it is dropped. -/
theorem closers_run_once (filters : Log.FilterReader) (steps : List Step) (s : Step) :
    let ms := moves { filters } steps
    let m : Move := ⟨after { filters } steps, s⟩
    ran ms ++ m.host.closers = registered ms ∧
      (∀ a, m.host.app = some a →
        m.host.closers = registered (sinceBuilt ms) ∧
        (m.host.step (.app .pending)).2.answer = .count (registered (sinceBuilt ms)).length) ∧
      (m.ends = false → m.ran = []) ∧
      (m.ends = true →
        m.next.closers = [] ∧
        ran (ms ++ [m]) = registered (ms ++ [m]) ∧
        ∀ a, m.host.app = some a → m.ran = registered (sinceBuilt ms)) ∧
      ∀ a : App,
        a.close.value.runs = a.closers.map (fun c => ⟨c, c.ending.run.value⟩) ∧
        a.drop.value = a.closers.map (fun c => ⟨c, c.ending.run.value⟩) ∧
        a.runClosers.value.2.drop = .quiet [] := by
  intro ms m
  have happ : ∀ a, m.host.app = some a → m.host.closers = registered (sinceBuilt ms) := by
    intro a ha
    rw [← closers_eq_registered ha]
    simp [closers, ha]
  refine ⟨ran_append_closers { filters } steps, ?_, Move.ran_of_not_ends, ?_,
    fun a => ⟨a.runs_close, a.runs_drop, a.drop_runClosers⟩⟩
  · intro a ha
    refine ⟨happ a ha, ?_⟩
    have hp : m.host.step (.app .pending) = (m.host, { answer := .count a.pending }) := by
      simp [step, ha, stepApp]
    rw [hp, ← closers_eq_registered ha]
    rfl
  · intro h
    refine ⟨Move.closers_next_of_ends h, ?_, ?_⟩
    · have hr := ran_append_closers { filters } (steps ++ [s])
      rw [after_concat, Move.closers_next_of_ends h, moves_concat] at hr
      simpa [closers] using hr
    · intro a ha
      rw [Move.ran_of_ends h, happ a ha]

/-- A run in which one app is replaced and the next one closed; a failure stops no other closer, and
there is nothing left to drop. -/
example : (outcomes {} [.adopt "first" .silent, .app (.onClose ⟨"a", .fails "lost"⟩),
      .app (.onClose ⟨"b", .succeeds⟩), .adopt "second" .silent,
      .app (.onClose ⟨"c", .succeeds⟩), .app .close, .app .drop]).map Outcome.ran =
    [[], [], [], [⟨"a", .fails "lost"⟩, ⟨"b", .succeeds⟩], [], [⟨"c", .succeeds⟩], []] := by
  decide

end Host
end FaultCodec
