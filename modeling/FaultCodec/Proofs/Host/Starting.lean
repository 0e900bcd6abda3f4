import FaultCodec.Host
import FaultCodec.Proofs.Settings.Rules
import FaultCodec.Proofs.Settings.Validation

/-!
# Starts that are refused

Settings are checked before the sink that they describe is made, and both look at the log filter in
the same way, whatever reads it. So a start is refused for what the check finds, and never by the
sink. A start that is refused leaves nothing behind: what follows in a run is as though it had not
been tried.
-/

namespace FaultCodec

variable {read : Log.FilterReader}

theorem Sink.build_eq_error_iff (s : Settings) (x : StartError) :
    build read s = .error x ↔ ∃ e, read s.logLevel = .error e ∧ x = .filter s.logLevel e := by
  unfold build ofSettingsWith
  cases read s.logLevel <;> simp [Except.map, Except.mapError, eq_comm]

/-- The check of settings and the making of their sink refuse the same log filters, with the same
words. -/
theorem Settings.refuses_logLevel_iff (s : Settings) (directive diagnostic : String) :
    (∃ rs, s.validateWith read.diagnose = .error rs ∧ .badLogLevel directive diagnostic ∈ rs) ↔
      Sink.build read s = .error (.filter directive ⟨diagnostic⟩) := by
  rw [exists_validateWith_eq_error_iff, badLogLevel_mem_reasonsWith_iff,
    Log.FilterReader.diagnose_eq_some_iff]
  simp only [Sink.build_eq_error_iff, StartError.filter.injEq]
  constructor
  · rintro ⟨rfl, he⟩
    exact ⟨⟨diagnostic⟩, he, rfl, rfl⟩
  · rintro ⟨_, he, rfl, rfl⟩
    exact ⟨rfl, he⟩

namespace App

variable {s : Settings}

theorem start_of_error {rs : List Reason} (h : s.validateWith read.diagnose = .error rs)
    (id : Nat) : start read id s = .error (.settings rs) := by
  rw [start, h]

/-- Settings that pass the check have a log filter, so that there is a sink for them. -/
theorem start_of_ok {ws : List Warning} (h : s.validateWith read.diagnose = .ok ws) (id : Nat) :
    ∃ started, start read id s = .ok started := by
  cases hb : Sink.build read s with
  | ok sink =>
    rw [start, h, hb]
    exact ⟨_, rfl⟩
  | error x =>
    obtain ⟨e, _, rfl⟩ := (Sink.build_eq_error_iff s x).mp hb
    obtain ⟨rs, hrs, _⟩ := (s.refuses_logLevel_iff s.logLevel e.message).mpr hb
    rw [h] at hrs
    cases hrs

theorem start_eq_error_iff (id : Nat) (s : Settings) (x : StartError) :
    start read id s = .error x ↔
      ∃ rs, s.validateWith read.diagnose = .error rs ∧ x = .settings rs := by
  cases h : s.validateWith read.diagnose with
  | error rs =>
    rw [start_of_error h]
    simp [eq_comm]
  | ok ws =>
    obtain ⟨started, hs⟩ := start_of_ok h id
    simp [hs]

theorem exists_start_eq_ok_iff (id : Nat) (s : Settings) :
    (∃ started, start read id s = .ok started) ↔
      ∃ ws, s.validateWith read.diagnose = .ok ws := by
  constructor
  · rintro ⟨started, hs⟩
    cases h : s.validateWith read.diagnose with
    | error rs =>
      rw [start_of_error h] at hs
      cases hs
    | ok ws => exact ⟨ws, rfl⟩
  · rintro ⟨ws, h⟩
    exact start_of_ok h id

end App

namespace Host

theorem outcomes_append (h : Host) (steps more : List Step) :
    h.outcomes (steps ++ more) = h.outcomes steps ++ (h.after steps).outcomes more := by
  induction steps generalizing h with
  | nil => rfl
  | cons s steps ih => simp [outcomes, after, ih]

theorem step_start_of_error {h : Host} {s : Settings} {rs : List Reason}
    (hs : s.validateWith h.filters.diagnose = .error rs) :
    h.step (.start s) = (h, { answer := .refused (.settings rs) }) := by
  simp only [step, App.start_of_error hs]

/-- For every reader of log filters: an app can be started just with the settings that the check
accepts, and is otherwise refused with the reasons of the check, never by its sink. A sink cannot be
made where the check reports the log filter, with the same directive and the same diagnostic,
whatever else is in the settings. A start that is refused logs nothing and runs nothing; the steps
behind it have the outcomes that they would have without it. -/
theorem start_follows_check (read : Log.FilterReader) (s : Settings) :
    (∀ id, (∃ started, App.start read id s = .ok started) ↔
      ∃ ws, s.validateWith read.diagnose = .ok ws) ∧
    (∀ id x, App.start read id s = .error x ↔
      ∃ rs, s.validateWith read.diagnose = .error rs ∧ x = .settings rs) ∧
    (∀ id directive e, App.start read id s ≠ .error (.filter directive e)) ∧
    (∀ x, Sink.build read s = .error x → ∃ directive e, x = .filter directive e) ∧
    (∀ (t : Settings) directive diagnostic, t.logLevel = s.logLevel →
      ((∃ rs, t.validateWith read.diagnose = .error rs ∧
          .badLogLevel directive diagnostic ∈ rs) ↔
        ∃ e, Sink.build read s = .error (.filter directive e) ∧ e.message = diagnostic)) ∧
    ∀ rs, s.validateWith read.diagnose = .error rs →
      ∀ h : Host, h.filters = read → ∀ steps later,
        let refusal : Outcome := { answer := .refused (.settings rs), ran := [], entries := [] }
        h.step (.start s) = (h, refusal) ∧
          h.after (steps ++ .start s :: later) = h.after (steps ++ later) ∧
          h.outcomes (steps ++ .start s :: later) =
            h.outcomes steps ++ refusal :: (h.after steps).outcomes later := by
  refine ⟨fun id => App.exists_start_eq_ok_iff id s, fun id => App.start_eq_error_iff id s,
    ?_, ?_, ?_, ?_⟩
  · intro id directive e h
    obtain ⟨rs, _, hx⟩ := (App.start_eq_error_iff id s _).mp h
    cases hx
  · intro x hx
    obtain ⟨e, _, rfl⟩ := (Sink.build_eq_error_iff s x).mp hx
    exact ⟨s.logLevel, e, rfl⟩
  · intro t directive diagnostic ht
    have hb : Sink.build read t = .error (.filter directive ⟨diagnostic⟩) ↔
        Sink.build read s = .error (.filter directive ⟨diagnostic⟩) := by
      simp only [Sink.build_eq_error_iff, ht]
    rw [t.refuses_logLevel_iff, hb]
    constructor
    · intro he
      exact ⟨⟨diagnostic⟩, he, rfl⟩
    · rintro ⟨e, he, rfl⟩
      exact he
  · rintro rs hs h rfl steps later refusal
    -- nothing that the steps do changes how log filters are read
    have hafter : (h.after steps).step (.start s) = (h.after steps, refusal) :=
      step_start_of_error (by rwa [filters_after])
    refine ⟨step_start_of_error hs, ?_, ?_⟩
    · rw [after_append, after_append, after, hafter]
    · rw [outcomes_append, outcomes, hafter]

/-- Where nothing is a log filter, even the defaults are refused, and an app that is there stays. -/
example :
    let h : Host := { filters := fun _ => .error ⟨"no filter"⟩ }
    let run := h.outcomes [.adopt "first" .silent, .app (.onClose ⟨"a", .fails "lost"⟩),
      .start .standard, .app .pending]
    run.map Outcome.answer =
      [.built, .count 1, .refused (.settings [.badLogLevel "info" "no filter"]), .count 1] := by
  decide

end Host
end FaultCodec
