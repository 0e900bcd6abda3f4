import FaultCodec.Settings.Rules
import Mathlib.Tactic.SplitIfs

/-!
# Reasons and warnings

Where the reasons and the warnings about settings come from: each of them is about one field, and
the warnings are about the section alone.
-/

namespace FaultCodec

namespace RemoteRead

theorem missingRemoteRead_not_mem_warnings (remote : RemoteRead) :
    .missingRemoteRead ∉ remote.warnings := by
  unfold warnings
  split_ifs <;> simp

theorem largeTimeout_mem_warnings_iff (remote : RemoteRead) (seconds : UInt64) :
    .largeTimeout seconds ∈ remote.warnings ↔ remote.timeout = seconds ∧ 3600 < seconds := by
  unfold warnings
  split_ifs with h
  · constructor
    · intro hw
      cases List.mem_singleton.mp hw
      exact ⟨rfl, h⟩
    · rintro ⟨rfl, _⟩
      exact List.mem_singleton_self _
  · constructor
    · intro hw
      exact absurd hw List.not_mem_nil
    · rintro ⟨rfl, hs⟩
      exact absurd hs h

end RemoteRead

namespace Settings

variable (diagnose : String → Option String) (s : Settings)

theorem mem_reasonsWith_iff (r : Reason) :
    r ∈ s.reasonsWith diagnose ↔
      r ∈ nameReasons s.serviceName ∨ r ∈ levelReasons diagnose s.logLevel ∨
        ∃ remote, s.remoteRead = some remote ∧ r ∈ remote.reasons := by
  cases h : s.remoteRead <;> simp [reasonsWith, h]

theorem exists_validateWith_eq_ok_iff :
    (∃ ws, s.validateWith diagnose = .ok ws) ↔ ∀ r, r ∉ s.reasonsWith diagnose := by
  simp [validateWith_eq_ok_iff, List.eq_nil_iff_forall_not_mem]

theorem exists_validateWith_eq_error_iff (r : Reason) :
    (∃ rs, s.validateWith diagnose = .error rs ∧ r ∈ rs) ↔ r ∈ s.reasonsWith diagnose := by
  constructor
  · rintro ⟨rs, hrs, hr⟩
    rw [((s.validateWith_eq_error_iff diagnose rs).mp hrs).1]
    exact hr
  · intro hr
    exact ⟨_, (s.validateWith_eq_error_iff diagnose _).mpr ⟨rfl, List.ne_nil_of_mem hr⟩, hr⟩

theorem missingRemoteRead_mem_warnings_iff :
    .missingRemoteRead ∈ s.warnings ↔ s.remoteRead = none := by
  cases h : s.remoteRead with
  | none => simp [warnings, h]
  | some remote => simp [warnings, h, remote.missingRemoteRead_not_mem_warnings]

theorem largeTimeout_mem_warnings_iff (seconds : UInt64) :
    .largeTimeout seconds ∈ s.warnings ↔
      ∃ remote, s.remoteRead = some remote ∧ remote.timeout = seconds ∧ 3600 < seconds := by
  cases h : s.remoteRead with
  | none => simp [warnings, h]
  | some remote => simp [warnings, h, remote.largeTimeout_mem_warnings_iff]

end Settings
end FaultCodec
