import FaultCodec.Proofs.Settings.Layers
import FaultCodec.Settings.Override

/-!
# Environments one after another

Two overrides in turn are one override, in which the later value of every setting counts. A sequence
of environments therefore acts like the one environment that gives every variable its last effective
value; bytes that are not effective hide no earlier value. Of a section that is there only the
address is touched, and only an effective address makes one.
-/

namespace FaultCodec

inductive Variable where
  | serviceName
  | logLevel
  | logFormat
  | address
  deriving Repr, DecidableEq

/-- Whether a text is `text` or `json`, in upper or lower case. -/
def LogFormat.isName (s : String) : Bool :=
  let lower := String.ofList (s.toList.map Char.toLower)
  lower = "text" || lower = "json"

theorem LogFormat.isSome_ofName? (s : String) : (ofName? s).isSome = isName s := by
  unfold ofName? isName
  rw [List.isSome_find?]
  simp only [all, List.any_cons, List.any_nil, Bool.or_false, LogFormat.name, eq_comm]

/-- Whether bytes are effective: they are text and, for the log format, the name of one. -/
def Variable.accepts : Variable → List UInt8 → Bool
  | logFormat, bytes => (Text.Utf8.text? bytes).any LogFormat.isName
  | _, bytes => (Text.Utf8.text? bytes).isSome

namespace Environment

def get (e : Environment) : Variable → Option (List UInt8)
  | .serviceName => e.serviceName
  | .logLevel => e.logLevel
  | .logFormat => e.logFormat
  | .address => e.address

/-- The bytes of a variable, if they are effective. -/
def effective? (e : Environment) (v : Variable) : Option (List UInt8) := (e.get v).filter v.accepts

def lastEffective? (envs : List Environment) (v : Variable) : Option (List UInt8) :=
  (envs.filterMap (·.effective? v)).getLast?

/-- The environment that sets every variable to its last effective value, if it has one. -/
def latest (envs : List Environment) : Environment where
  serviceName := lastEffective? envs .serviceName
  logLevel := lastEffective? envs .logLevel
  logFormat := lastEffective? envs .logFormat
  address := lastEffective? envs .address

theorem get_latest (envs : List Environment) (v : Variable) :
    (latest envs).get v = lastEffective? envs v := by
  cases v <;> rfl

@[simp] theorem lastEffective?_nil (v : Variable) : lastEffective? [] v = none := rfl

@[simp] theorem lastEffective?_cons (e : Environment) (envs : List Environment) (v : Variable) :
    lastEffective? (e :: envs) v = (lastEffective? envs v).or (e.effective? v) :=
  Settings.getLast?_filterMap_cons _ e envs

theorem lastEffective?_eq_none_iff (envs : List Environment) (v : Variable) :
    lastEffective? envs v = none ↔ ∀ e ∈ envs, e.effective? v = none := by
  simp [lastEffective?]

section Reading

variable {α : Type} {v : Variable} {read : List UInt8 → Option α}

/-- Bytes that are not effective are not read. -/
theorem bind_effective? (h : ∀ bytes, v.accepts bytes = (read bytes).isSome) (e : Environment) :
    (e.effective? v).bind read = (e.get v).bind read := by
  unfold effective?
  cases he : e.get v with
  | none => rfl
  | some bytes =>
    cases hr : read bytes <;> simp [Option.filter, h, hr]

theorem exists_read_of_lastEffective? (h : ∀ bytes, v.accepts bytes = (read bytes).isSome)
    {envs : List Environment} {bytes : List UInt8} (hl : lastEffective? envs v = some bytes) :
    ∃ a, read bytes = some a := by
  obtain ⟨e, _, he⟩ := List.mem_filterMap.mp (List.mem_of_getLast? hl)
  have ha : v.accepts bytes = true := (Option.filter_eq_some_iff.mp he).2
  rw [h] at ha
  exact Option.isSome_iff_exists.mp ha

/-- An earlier value is read where no later environment has an effective one. -/
theorem bind_lastEffective?_cons (h : ∀ bytes, v.accepts bytes = (read bytes).isSome)
    (e : Environment) (envs : List Environment) :
    (lastEffective? (e :: envs) v).bind read =
      ((lastEffective? envs v).bind read).or ((e.get v).bind read) := by
  rw [lastEffective?_cons, ← bind_effective? h e]
  cases hl : lastEffective? envs v with
  | none => rfl
  | some bytes =>
    obtain ⟨a, ha⟩ := exists_read_of_lastEffective? h hl
    simp [ha]

theorem bind_lastEffective?_eq_none_iff (h : ∀ bytes, v.accepts bytes = (read bytes).isSome)
    (envs : List Environment) :
    (lastEffective? envs v).bind read = none ↔ ∀ e ∈ envs, e.effective? v = none := by
  rw [← lastEffective?_eq_none_iff]
  cases hl : lastEffective? envs v with
  | none => simp
  | some bytes =>
    obtain ⟨a, ha⟩ := exists_read_of_lastEffective? h hl
    simp [ha]

end Reading

def format? (bytes : List UInt8) : Option LogFormat :=
  (Text.Utf8.text? bytes).bind LogFormat.ofName?

theorem accepts_logFormat (bytes : List UInt8) :
    Variable.logFormat.accepts bytes = (format? bytes).isSome := by
  have ha : Variable.logFormat.accepts bytes =
      (Text.Utf8.text? bytes).any LogFormat.isName := rfl
  rw [ha, format?]
  cases Text.Utf8.text? bytes with
  | none => rfl
  | some s => exact (LogFormat.isSome_ofName? s).symm

theorem override_eq (e : Environment) :
    e.override = {
      serviceName := e.serviceName.bind Text.Utf8.text?
      logLevel := e.logLevel.bind Text.Utf8.text?
      logFormat := e.logFormat.bind format?
      address := e.address.bind Text.Utf8.text? } := by
  rw [override, Option.bind_assoc]
  rfl

/-- The text of a variable, if its bytes are effective. -/
def effectiveText? (e : Environment) (v : Variable) : Option String :=
  (e.effective? v).bind Text.Utf8.text?

def effectiveFormat? (e : Environment) : Option LogFormat := (e.effective? .logFormat).bind format?

/-- Effective bytes are a text, whatever else is asked of them. -/
theorem isSome_text?_of_accepts {v : Variable} {bytes : List UInt8} (h : v.accepts bytes = true) :
    (Text.Utf8.text? bytes).isSome = true := by
  cases v with
  | logFormat =>
    obtain ⟨s, hs, _⟩ := (Option.any_eq_true LogFormat.isName (Text.Utf8.text? bytes)).mp h
    rw [hs]
    rfl
  | serviceName | logLevel | address => exact h

theorem effectiveText?_eq_none_iff (e : Environment) (v : Variable) :
    e.effectiveText? v = none ↔ e.effective? v = none := by
  unfold effectiveText?
  cases he : e.effective? v with
  | none => simp
  | some bytes =>
    have ha : v.accepts bytes = true := (Option.filter_eq_some_iff.mp he).2
    obtain ⟨s, hs⟩ := Option.isSome_iff_exists.mp (isSome_text?_of_accepts ha)
    simp [hs]

theorem override_eq_effective (e : Environment) :
    e.override = {
      serviceName := e.effectiveText? .serviceName
      logLevel := e.effectiveText? .logLevel
      logFormat := e.effectiveFormat?
      address := e.effectiveText? .address } := by
  have hn := bind_effective? (v := .serviceName) (fun _ => rfl) e
  have hl := bind_effective? (v := .logLevel) (fun _ => rfl) e
  have hf := bind_effective? accepts_logFormat e
  have ha := bind_effective? (v := .address) (fun _ => rfl) e
  rw [override_eq]
  simp only [effectiveText?, effectiveFormat?, hn, hl, hf, ha, get]

theorem address_override (e : Environment) : e.override.address = e.effectiveText? .address := by
  rw [override_eq_effective]

theorem override_latest_cons (e : Environment) (envs : List Environment) :
    (latest (e :: envs)).override = e.override.andThen (latest envs).override := by
  have hn := bind_lastEffective?_cons (v := .serviceName) (fun _ => rfl) e envs
  have hl := bind_lastEffective?_cons (v := .logLevel) (fun _ => rfl) e envs
  have hf := bind_lastEffective?_cons accepts_logFormat e envs
  have ha := bind_lastEffective?_cons (v := .address) (fun _ => rfl) e envs
  rw [override_eq, override_eq, override_eq, Override.andThen]
  simp only [latest, hn, hl, hf, ha, get]

end Environment

theorem RemoteRead.withAddress_withAddress (section? : Option RemoteRead) (first second : String) :
    withAddress (some (withAddress section? first)) second = withAddress section? second := by
  cases section? <;> rfl

theorem Override.apply_andThen (first second : Override) (s : Settings) :
    (first.andThen second).apply s = second.apply (first.apply s) := by
  unfold andThen apply
  rw [Option.getD_or, Option.getD_or, Option.getD_or]
  cases second.address with
  | none => rfl
  | some b =>
    cases first.address with
    | none => rfl
    | some a => simp only [Option.or, RemoteRead.withAddress_withAddress]

namespace Settings

theorem serviceName_under (s : Settings) (env : Environment) :
    (s.under env).serviceName = (env.effectiveText? .serviceName).getD s.serviceName := by
  rw [under, env.override_eq_effective]
  rfl

theorem logLevel_under (s : Settings) (env : Environment) :
    (s.under env).logLevel = (env.effectiveText? .logLevel).getD s.logLevel := by
  rw [under, env.override_eq_effective]
  rfl

theorem logFormat_under (s : Settings) (env : Environment) :
    (s.under env).logFormat = env.effectiveFormat?.getD s.logFormat := by
  rw [under, env.override_eq_effective]
  rfl

theorem remoteRead_under_of_none {s : Settings} (h : s.remoteRead = none) (env : Environment) :
    (s.under env).remoteRead =
      (env.effectiveText? .address).map fun address => ({ address } : RemoteRead) := by
  rw [← env.address_override]
  cases ha : env.override.address <;> simp [under, Override.apply, RemoteRead.withAddress, ha, h]

theorem remoteRead_under_of_some {s : Settings} {r : RemoteRead} (h : s.remoteRead = some r)
    (env : Environment) :
    (s.under env).remoteRead =
      some { r with address := (env.effectiveText? .address).getD r.address } := by
  rw [← env.address_override]
  cases ha : env.override.address <;> simp [under, Override.apply, RemoteRead.withAddress, ha, h]

theorem remoteRead_apply_eq_none_iff (o : Override) (s : Settings) :
    (o.apply s).remoteRead = none ↔ s.remoteRead = none ∧ o.address = none := by
  cases ha : o.address <;> simp [Override.apply, ha]

theorem remoteRead_under_eq_none_iff (s : Settings) (env : Environment) :
    (s.under env).remoteRead = none ↔ s.remoteRead = none ∧ env.effective? .address = none := by
  rw [under, remoteRead_apply_eq_none_iff, Environment.address_override,
    Environment.effectiveText?_eq_none_iff]

theorem foldl_under (s : Settings) (envs : List Environment) :
    envs.foldl under s = s.under (Environment.latest envs) := by
  induction envs generalizing s with
  | nil => rfl
  | cons e envs ih =>
    calc (e :: envs).foldl under s
        = (Environment.latest envs).override.apply (e.override.apply s) := ih (s.under e)
      _ = (e.override.andThen (Environment.latest envs).override).apply s :=
          (Override.apply_andThen _ _ s).symm
      _ = s.under (Environment.latest (e :: envs)) := by
          rw [under, Environment.override_latest_cons]

theorem foldl_under_congr {envs others : List Environment}
    (h : ∀ v, Environment.lastEffective? envs v = Environment.lastEffective? others v)
    (s : Settings) : envs.foldl under s = others.foldl under s := by
  have hl : Environment.latest envs = Environment.latest others := by
    unfold Environment.latest
    rw [h, h, h, h]
  rw [foldl_under, foldl_under, hl]

theorem under_under_self (s : Settings) (e : Environment) : (s.under e).under e = s.under e := by
  have h : [e, e].foldl under s = [e].foldl under s := by
    apply foldl_under_congr
    intro v
    simp
  exact h

theorem under_comm {e f : Environment} (hd : ∀ v, e.effective? v = none ∨ f.effective? v = none)
    (s : Settings) : (s.under e).under f = (s.under f).under e := by
  have h : [e, f].foldl under s = [f, e].foldl under s := by
    apply foldl_under_congr
    intro v
    rcases hd v with hv | hv <;> simp [hv]
  exact h

/-- A sequence of environments does what one environment does that sets every variable to its last
effective value. An environment that comes twice counts once, and environments without an effective
value for the same variable may be swapped. A section that is there stays, with all its fields but
the address; one is made exactly where some environment has an effective address. -/
theorem environments_in_turn (s : Settings) (envs : List Environment) :
    envs.foldl under s = s.under (Environment.latest envs) ∧
    (∀ v, (Environment.latest envs).get v = (envs.filterMap (·.effective? v)).getLast?) ∧
    (∀ e, (s.under e).under e = s.under e) ∧
    (∀ e f, (∀ v, e.effective? v = none ∨ f.effective? v = none) →
      (s.under e).under f = (s.under f).under e) ∧
    (∀ r, s.remoteRead = some r →
      ∃ address, (envs.foldl under s).remoteRead = some { r with address }) ∧
    (s.remoteRead = none →
      ((envs.foldl under s).remoteRead = none ↔ ∀ e ∈ envs, e.effective? .address = none)) := by
  refine ⟨foldl_under s envs, Environment.get_latest envs, s.under_under_self, ?_, ?_, ?_⟩
  · intro e f hd
    exact under_comm hd s
  · intro r hr
    refine ⟨((Environment.latest envs).effectiveText? .address).getD r.address, ?_⟩
    rw [foldl_under, remoteRead_under_of_some hr]
  · intro hr
    have ha : (Environment.latest envs).override.address = none ↔
        ∀ e ∈ envs, e.effective? .address = none :=
      Environment.bind_lastEffective?_eq_none_iff (fun _ => rfl) envs
    rw [foldl_under, under, remoteRead_apply_eq_none_iff, ha]
    exact and_iff_right hr

/-- A format that is not known hides no earlier one, and an address that comes later keeps the
section. -/
example :
    let first : Environment :=
      { logFormat := some (Text.Utf8.bytes "JSON"), address := some (Text.Utf8.bytes "http://a") }
    let second : Environment :=
      { logFormat := some (Text.Utf8.bytes "yaml"), address := some (Text.Utf8.bytes "http://b") }
    [first, second].foldl under standard =
      { logFormat := .json, remoteRead := some { address := "http://b" } } := by
  decide

end Settings
end FaultCodec
