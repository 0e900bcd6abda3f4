import FaultCodec.Proofs.Settings.Environment
import FaultCodec.Proofs.Settings.Rules
import FaultCodec.Proofs.Text.Utf8

/-!
# Overrides of accepted settings

Whatever an environment does to settings that are accepted, it is to blame only for what it sets
itself. An address that is put into a section leaves the rules about its other fields alone, and a
section that is made for an address has defaults that break none of them.
-/

namespace FaultCodec

namespace RemoteRead

def addressReasons (address : String) : List Reason :=
  require (hasScheme address) (.badAddress address)

/-- In a section that breaks no rule a new address can break the rule about addresses only. -/
theorem reasons_of_address {r : RemoteRead} (h : r.reasons = []) (address : String) :
    ({ r with address } : RemoteRead).reasons = addressReasons address := by
  simp only [reasons, List.append_eq_nil_iff] at h
  obtain ⟨⟨⟨_, ht⟩, hm⟩, hi⟩ := h
  simp only [reasons, addressReasons, ht, hm, hi, List.append_nil]

theorem reasons_withAddress {section? : Option RemoteRead} (h : section?.elim [] reasons = [])
    (address : String) : (withAddress section? address).reasons = addressReasons address := by
  cases section? with
  | none =>
    have hd : ({ address := "http://" } : RemoteRead).reasons = [] := by decide
    exact reasons_of_address hd address
  | some r => exact reasons_of_address h address

end RemoteRead

/-- What is wrong with the effective values by themselves, with one reason for each value. -/
def Environment.reasonsWith (diagnose : String → Option String) (env : Environment) :
    List Reason :=
  (((env.effectiveText? .serviceName).filter Text.isBlankText).map
    fun _ => .blankServiceName).toList ++
  ((env.effectiveText? .logLevel).bind
    fun level => (diagnose level).map (.badLogLevel level)).toList ++
  (((env.effectiveText? .address).filter fun address => !RemoteRead.hasScheme address).map
    .badAddress).toList

theorem Environment.reasonsWith_eq_nil_iff (diagnose : String → Option String)
    (env : Environment) :
    env.reasonsWith diagnose = [] ↔
      (∀ name, env.effectiveText? .serviceName = some name → Text.isBlankText name = false) ∧
      (∀ level, env.effectiveText? .logLevel = some level → diagnose level = none) ∧
      ∀ address, env.effectiveText? .address = some address →
        RemoteRead.hasScheme address = true := by
  simp [reasonsWith, Option.filter_eq_none_iff]

namespace Settings

variable {diagnose : String → Option String} {s : Settings}

/-- Where a value was acceptable, only the value that takes its place can be to blame. -/
theorem reasons_getD {α : Type} {rules : α → List Reason} {a : α} (h : rules a = [])
    (b? : Option α) : rules (b?.getD a) = b?.elim [] rules := by
  cases b? with
  | none => exact h
  | some b => rfl

theorem elim_nameReasons (name? : Option String) :
    name?.elim [] nameReasons =
      ((name?.filter Text.isBlankText).map fun _ => .blankServiceName).toList := by
  cases name? with
  | none => rfl
  | some name => cases h : Text.isBlankText name <;> simp [nameReasons, Option.filter, h]

theorem elim_levelReasons (level? : Option String) :
    level?.elim [] (levelReasons diagnose) =
      (level?.bind fun level => (diagnose level).map (.badLogLevel level)).toList := by
  cases level? with
  | none => rfl
  | some level => cases h : diagnose level <;> simp [levelReasons, h]

theorem elim_addressReasons (address? : Option String) :
    address?.elim [] RemoteRead.addressReasons =
      ((address?.filter fun address => !RemoteRead.hasScheme address).map .badAddress).toList := by
  cases address? with
  | none => rfl
  | some address =>
    cases h : RemoteRead.hasScheme address <;>
      simp [RemoteRead.addressReasons, RemoteRead.require, Option.filter, h]

theorem reasonsWith_under (h : s.reasonsWith diagnose = []) (env : Environment) :
    (s.under env).reasonsWith diagnose = env.reasonsWith diagnose := by
  simp only [reasonsWith, List.append_eq_nil_iff] at h
  obtain ⟨⟨hn, hl⟩, hr⟩ := h
  have ha : (s.under env).remoteRead.elim [] RemoteRead.reasons =
      (env.effectiveText? .address).elim [] RemoteRead.addressReasons := by
    rw [← env.address_override, under, Override.apply]
    cases env.override.address with
    | none => exact hr
    | some address => exact RemoteRead.reasons_withAddress hr address
  rw [reasonsWith, ha, serviceName_under, logLevel_under, reasons_getD hn, reasons_getD hl,
    elim_nameReasons, elim_levelReasons, elim_addressReasons, Environment.reasonsWith]

theorem missingRemoteRead_mem_warnings_under_iff (s : Settings) (env : Environment) :
    .missingRemoteRead ∈ (s.under env).warnings ↔
      s.remoteRead = none ∧ env.effective? .address = none := by
  rw [missingRemoteRead_mem_warnings_iff, remoteRead_under_eq_none_iff]

/-- No timeout is changed, and the default timeout of a new section is not a large one. -/
theorem largeTimeout_mem_warnings_under_iff (s : Settings) (env : Environment) (seconds : UInt64) :
    .largeTimeout seconds ∈ (s.under env).warnings ↔ .largeTimeout seconds ∈ s.warnings := by
  rw [largeTimeout_mem_warnings_iff, largeTimeout_mem_warnings_iff]
  cases hr : s.remoteRead with
  | none =>
    have hd : ¬(3600 : UInt64) < 30 := by decide
    rw [remoteRead_under_of_none hr]
    simp only [Option.map_eq_some_iff, reduceCtorEq, false_and, exists_false, iff_false]
    rintro ⟨_, ⟨address, _, rfl⟩, rfl, hs⟩
    exact hd hs
  | some r =>
    rw [remoteRead_under_of_some hr]
    simp

/-- Settings that are accepted are accepted under an environment exactly where each of its effective
values is acceptable by itself; otherwise there is one reason for each value that is not, in the
order of the rules. An accepted result is warned about a missing section where neither the settings
nor the environment have one, and about a large timeout where the settings are. -/
theorem overrides_break_own {ws : List Warning} (hs : s.validateWith diagnose = .ok ws)
    (env : Environment) :
    ((∃ ws', (s.under env).validateWith diagnose = .ok ws') ↔
      (∀ name, env.effectiveText? .serviceName = some name → Text.isBlankText name = false) ∧
      (∀ level, env.effectiveText? .logLevel = some level → diagnose level = none) ∧
      ∀ address, env.effectiveText? .address = some address →
        RemoteRead.hasScheme address = true) ∧
    (∀ rs, (s.under env).validateWith diagnose = .error rs → rs = env.reasonsWith diagnose) ∧
    ∀ ws', (s.under env).validateWith diagnose = .ok ws' →
      (.missingRemoteRead ∈ ws' ↔ s.remoteRead = none ∧ env.effective? .address = none) ∧
      ∀ seconds, .largeTimeout seconds ∈ ws' ↔ .largeTimeout seconds ∈ ws := by
  obtain ⟨hr, rfl⟩ := (s.validateWith_eq_ok_iff diagnose ws).mp hs
  have hu : (s.under env).reasonsWith diagnose = env.reasonsWith diagnose :=
    reasonsWith_under hr env
  refine ⟨?_, ?_, ?_⟩
  · rw [← Environment.reasonsWith_eq_nil_iff, ← hu]
    simp [validateWith_eq_ok_iff]
  · intro rs hrs
    rw [← hu]
    exact ((validateWith_eq_error_iff diagnose _ rs).mp hrs).1.symm
  · intro ws' hws
    obtain ⟨_, rfl⟩ := (validateWith_eq_ok_iff diagnose _ ws').mp hws
    exact ⟨missingRemoteRead_mem_warnings_under_iff s env,
      largeTimeout_mem_warnings_under_iff s env⟩

/-- A slow section, whose timeout is one to be warned about. -/
def slowSettings : Settings where
  remoteRead := some { address := "http://a", timeout := 7200 }

/-- A blank name, a log filter that is fine and an address of an unknown scheme. -/
def faultyEnvironment : Environment where
  serviceName := some (Text.Utf8.bytes " ")
  logLevel := some (Text.Utf8.bytes "warn")
  address := some (Text.Utf8.bytes "ftp://b")

/-- The name and the address are to blame, the section as it was is not. -/
theorem overrides_break_own_slow :
    slowSettings.validate = .ok [.largeTimeout 7200] ∧
      (slowSettings.under faultyEnvironment).validate =
        .error [.blankServiceName, .badAddress "ftp://b"] := by
  have hs : slowSettings.validate = .ok [.largeTimeout 7200] := by
    decide +kernel
  have ho : faultyEnvironment.reasonsWith Log.FilterReader.directives.diagnose =
      [.blankServiceName, .badAddress "ftp://b"] := by
    decide +kernel
  obtain ⟨hok, herror, _⟩ := overrides_break_own hs faultyEnvironment
  refine ⟨hs, ?_⟩
  cases hv : (slowSettings.under faultyEnvironment).validate with
  | error rs =>
    have hrs : rs = [.blankServiceName, .badAddress "ftp://b"] := (herror rs hv).trans ho
    rw [hrs]
  | ok ws =>
    -- a blank name alone rules this out
    have hn : faultyEnvironment.effectiveText? .serviceName = some " " := by decide
    have hb : Text.isBlankText " " = true := by decide
    have hblank := (hok.mp ⟨ws, hv⟩).1 " " hn
    rw [hb] at hblank
    cases hblank

end Settings
end FaultCodec
