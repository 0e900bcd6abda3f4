import FaultCodec.Host
import FaultCodec.Proofs.App.Teardown
import FaultCodec.Proofs.Status.Decoding
import Mathlib.Data.List.Basic

/-!
# The report of a teardown

When an app is closed, the texts of the closers that fail are reported in the order of their
registration and numbered from one on, without gaps for the closers that succeed. Each failure is
logged as well, behind what its closer has logged itself. Dropping the app logs the same and reports
nothing.
-/

namespace FaultCodec

/-- The ways in which a closer fails with a text. -/
inductive Ending.FailsWith : Ending → String → Prop
  | plain (text : String) : FailsWith (fails text) text
  | fault (f : Fault) : FailsWith (faults f) f.message
  | decoded {s : Status} {f : Fault} (h : s.decode.value = some f) :
    FailsWith (decodes s) f.message

theorem Ending.value_run_eq_some_iff (e : Ending) (text : String) :
    e.run.value = some text ↔ e.FailsWith text := by
  constructor
  · intro h
    cases e with
    | succeeds => cases h
    | fails t =>
      cases h
      exact .plain _
    | faults f =>
      cases h
      exact .fault f
    | decodes s =>
      obtain ⟨f, hf, rfl⟩ := Option.map_eq_some_iff.mp h
      exact .decoded hf
  · intro h
    cases h with
    | plain => rfl
    | fault => rfl
    | decoded hf => simp [run, hf]

namespace Closer

def failure? (c : Closer) : Option String := c.ending.run.value

def warning? (service : String) (c : Closer) : Option Log.Event :=
  c.failure?.map (warning service c.name)

theorem failure?_eq_some_iff (c : Closer) (text : String) :
    c.failure? = some text ↔ c.ending.FailsWith text :=
  c.ending.value_run_eq_some_iff text

theorem warning?_eq_some_iff (service : String) (c : Closer) (w : Log.Event) :
    c.warning? service = some w ↔ ∃ text, c.ending.FailsWith text ∧
      w = { level := .warn, target := "wirex_app", message := "closer failed",
            fields := [("service", .text service), ("closer", .text c.name),
              ("error", .text text)] } := by
  rw [warning?, Option.map_eq_some_iff]
  constructor
  · rintro ⟨text, ht, rfl⟩
    exact ⟨text, (c.failure?_eq_some_iff text).mp ht, rfl⟩
  · rintro ⟨text, ht, rfl⟩
    exact ⟨text, (c.failure?_eq_some_iff text).mpr ht, rfl⟩

theorem events_run (service : String) (c : Closer) :
    (c.run service).events = c.ending.run.events ++ (c.warning? service).toList := rfl

end Closer

/-- What a closer logs itself is never mistaken for its failure. -/
theorem Ending.message_of_mem_events_run {e : Ending} {x : Log.Event} (h : x ∈ e.run.events) :
    x.message ≠ "closer failed" := by
  cases e with
  | succeeds | fails | faults => cases h
  | decodes s =>
    have hx : x ∈ s.decode.events := by simpa [run] using h
    rcases s.decode_cases with ⟨_, hd⟩ | ⟨p, _, _, hd⟩ | ⟨_, hd⟩
    · simp [hd] at hx
    · simp [hd] at hx
    · rw [hd, List.mem_singleton] at hx
      rw [hx]
      simp [Status.fallbackWarning]

namespace CloseError

theorem joinWith_eq_intercalate (sep : String) (texts : List String) :
    Text.joinWith sep texts = sep.intercalate texts := by
  induction texts with
  | nil => rfl
  | cons text texts ih =>
    cases texts with
    | nil => simp
    | cons next texts => rw [Text.joinWith_cons_cons, ih, String.intercalate_cons_cons]

theorem numbered_eq_mapIdx (n : Nat) (texts : List String) :
    numbered n texts =
      texts.mapIdx fun i text => "error " ++ toString (n + i) ++ ": " ++ text := by
  induction texts generalizing n with
  | nil => rfl
  | cons text texts ih =>
    rw [numbered, ih, List.mapIdx_cons]
    simp only [Nat.add_zero, Nat.add_assoc, Nat.add_comm 1]

theorem message_eq_intercalate (e : CloseError) :
    e.message = ", ".intercalate
      (e.failures.mapIdx fun i text => "error " ++ toString (i + 1) ++ ": " ++ text) := by
  rw [message, joinWith_eq_intercalate, numbered_eq_mapIdx]
  simp only [Nat.add_comm 1]

theorem ofFailures_of_ne_nil {texts : List String} (h : texts ≠ []) :
    ofFailures texts = some ⟨texts⟩ := by
  cases texts with
  | nil => exact absurd rfl h
  | cons text texts => rfl

end CloseError

namespace App

/-- The texts of the closers that fail, in the order of their registration. -/
def failures (a : App) : List String := a.closers.filterMap Closer.failure?

theorem failures_eq_nil_iff (a : App) :
    a.failures = [] ↔ ∀ c ∈ a.closers, ∀ text, ¬c.ending.FailsWith text := by
  simp only [failures, List.filterMap_eq_nil_iff, Option.eq_none_iff_forall_ne_some, ne_eq,
    Closer.failure?_eq_some_iff]

theorem error?_close (a : App) : a.close.value.error? = CloseError.ofFailures a.failures := by
  have hr : a.runClosers.value.1 = a.closers.map fun c => ⟨c, c.failure?⟩ :=
    Closer.value_runAll a.serviceName a.closers
  have hc : a.close.value.error? = CloseError.ofRuns a.runClosers.value.1 := rfl
  rw [hc, hr, CloseError.ofRuns, List.filterMap_map]
  rfl

theorem closingEvents_eq (a : App) :
    a.closingEvents =
      a.closers.flatMap fun c => c.ending.run.events ++ (c.warning? a.serviceName).toList := by
  simp only [closingEvents, Closer.events_run]

/-- Every failure is warned about once, and nothing else is. -/
theorem filter_closingEvents (a : App) :
    a.closingEvents.filter (·.message = "closer failed") =
      a.closers.filterMap (Closer.warning? a.serviceName) := by
  rw [closingEvents_eq, List.filter_flatMap, List.filterMap_eq_flatMap_toList]
  congr 1
  funext c
  have ho : c.ending.run.events.filter (·.message = "closer failed") = [] := by
    rw [List.filter_eq_nil_iff]
    intro x hx
    simpa using Ending.message_of_mem_events_run hx
  rw [List.filter_append, ho, List.nil_append]
  cases h : c.failure? <;> simp [Closer.warning?, Closer.warning, h]

end App

namespace Host

/-- Closing an app succeeds exactly where no closer fails. Otherwise the texts of the failures are
reported in the order of the closers, and shown with numbers from one on. The dispatcher of the app
takes what each closer logs itself and, behind that, the warning about its failure, as far as its
sink keeps them; these warnings are one for each failure and in the same order. If the app is
dropped instead, the same closers run and the same is logged. -/
theorem teardown_reported (h : Host) (a : App) :
    let host : Host := { h with app := some a }
    let closed := (host.step (.app .close)).2
    let dropped := (host.step (.app .drop)).2
    let events := a.closers.flatMap fun c =>
      c.ending.run.events ++ (c.warning? a.serviceName).toList
    (∀ (c : Closer) text, c.failure? = some text ↔ c.ending.FailsWith text) ∧
    (closed.answer = .closed ↔ ∀ c ∈ a.closers, ∀ text, ¬c.ending.FailsWith text) ∧
    (closed.answer ≠ .closed →
      ∃ e, closed.answer = .failed e ∧ e.failures = a.closers.filterMap Closer.failure? ∧
        e.message = ", ".intercalate
          (e.failures.mapIdx fun i text => "error " ++ toString (i + 1) ++ ": " ++ text)) ∧
    closed.entries = a.dispatcher.take events ∧
    closed.entries.map Entry.event = events.filter a.dispatcher.sink.keeps ∧
    (∀ x ∈ closed.entries, x.dispatcher = a.dispatcher) ∧
    ((∀ x, a.dispatcher.sink.keeps x = true) → closed.entries.map Entry.event = events) ∧
    (∀ (c : Closer) w, c.warning? a.serviceName = some w ↔
      ∃ text, c.ending.FailsWith text ∧
        w = { level := .warn, target := "wirex_app", message := "closer failed",
              fields := [("service", .text a.serviceName), ("closer", .text c.name),
                ("error", .text text)] }) ∧
    events.filter (·.message = "closer failed") =
      a.closers.filterMap (Closer.warning? a.serviceName) ∧
    dropped.entries = closed.entries ∧
    dropped.ran = closed.ran := by
  intro host closed dropped events
  have hanswer : closed.answer = closeAnswer (CloseError.ofFailures a.failures) := by
    rw [← a.error?_close]
    rfl
  have hclosed : closed.entries = a.dispatcher.take events := by
    have he : closed.entries = a.dispatcher.take a.close.events := rfl
    rw [he, a.events_close, a.closingEvents_eq]
  have htaken : closed.entries.map Entry.event = events.filter a.dispatcher.sink.keeps := by
    rw [hclosed, Dispatcher.events_take]
  refine ⟨Closer.failure?_eq_some_iff, ?_, ?_, hclosed, htaken, ?_, ?_,
    fun c w => c.warning?_eq_some_iff a.serviceName w, ?_, ?_, ?_⟩
  · rw [hanswer, ← a.failures_eq_nil_iff, ← CloseError.ofFailures_eq_none_iff]
    cases CloseError.ofFailures a.failures <;> simp [closeAnswer]
  · intro hne
    have hf : a.failures ≠ [] := by
      intro hn
      rw [hanswer, hn] at hne
      exact hne rfl
    rw [CloseError.ofFailures_of_ne_nil hf] at hanswer
    exact ⟨⟨a.failures⟩, hanswer, rfl, CloseError.message_eq_intercalate _⟩
  · intro x hx
    rw [hclosed] at hx
    exact Dispatcher.dispatcher_of_mem_take hx
  · intro hall
    rw [htaken, List.filter_eq_self]
    exact fun x _ => hall x
  · rw [← a.filter_closingEvents, a.closingEvents_eq]
  · have he : dropped.entries = a.dispatcher.take a.drop.events := rfl
    rw [he, hclosed, a.events_drop, a.closingEvents_eq]
  · have hd : dropped.ran = a.drop.value.map Closer.Run.closer := rfl
    have hc : closed.ran = a.close.value.runs.map Closer.Run.closer := rfl
    rw [hd, hc, a.closers_drop, a.closers_close]

/-- A closer that succeeds between two that fail takes no number. -/
example :
    let closers : List Closer := [⟨"a", .fails "lost"⟩, ⟨"b", .succeeds⟩,
      ⟨"c", .decodes { code := .notFound, message := "gone" }⟩]
    let app : App := { serviceName := "s", dispatcher := ⟨0, .silent⟩, closers }
    app.close.value.error?.map CloseError.message = some ("error 1: lost, error 2: " ++
      "missing subtype specifier for NotFound. wire:NotFound: gone") := by
  decide

end Host
end FaultCodec
