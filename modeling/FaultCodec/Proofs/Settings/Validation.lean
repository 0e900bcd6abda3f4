import FaultCodec.Settings.Rules
import Mathlib.Tactic.SplitIfs

/-!
# Every broken rule is reported

The rules are gone through in a fixed order. Each broken one gives one reason, whatever the others
give, and settings are accepted where no rule is broken. When a rule is broken is said here without
the checks, and the checks are shown to find just that. A reason is about one part of the settings,
and no other part has a bearing on it.
-/

namespace FaultCodec
namespace Settings

/-- The parts of settings that there are rules about. -/
inductive Part where
  | serviceName
  | logLevel
  | remoteRead
  deriving Repr, DecidableEq

/-- Whether two settings have the same part. -/
def Shares (s t : Settings) : Part → Prop
  | .serviceName => s.serviceName = t.serviceName
  | .logLevel => s.logLevel = t.logLevel
  | .remoteRead => s.remoteRead = t.remoteRead

inductive Rule where
  | serviceName
  | logLevel
  | address
  | timeout
  | maxConns
  | idleConns
  deriving Repr, DecidableEq

namespace Rule

def remoteRead : List Rule := [address, timeout, maxConns, idleConns]

/-- The rules in the order in which they are gone through. -/
def all : List Rule := serviceName :: logLevel :: remoteRead

def part : Rule → Part
  | serviceName => .serviceName
  | logLevel => .logLevel
  | address | timeout | maxConns | idleConns => .remoteRead

end Rule

/-- Whether a rule is broken for a reason. Without a section the rules about it are kept. -/
def Breaks (diagnose : String → Option String) (s : Settings) : Rule → Reason → Prop
  | .serviceName, r =>
    (∀ c ∈ s.serviceName.toList, Text.isBlank c = true) ∧ r = .blankServiceName
  | .logLevel, r =>
    ∃ diagnostic, diagnose s.logLevel = some diagnostic ∧ r = .badLogLevel s.logLevel diagnostic
  | .address, r =>
    ∃ remote, s.remoteRead = some remote ∧
      (¬"http://".toList <+: remote.address.toList ∧ ¬"https://".toList <+: remote.address.toList) ∧
      r = .badAddress remote.address
  | .timeout, r =>
    ∃ remote, s.remoteRead = some remote ∧ remote.timeout = 0 ∧ r = .zeroTimeout
  | .maxConns, r =>
    ∃ remote, s.remoteRead = some remote ∧ remote.maxConns = 0 ∧ r = .zeroMaxConns
  | .idleConns, r =>
    ∃ remote, s.remoteRead = some remote ∧ remote.maxConns < remote.maxIdleConns ∧
      r = .idleAboveMax remote.maxIdleConns remote.maxConns

/-- Going through some rules gives one reason for each broken one and none for the others. -/
inductive Finds (diagnose : String → Option String) (s : Settings) : List Rule → List Reason → Prop
  | nil : Finds diagnose s [] []
  | broken {rule : Rule} {r : Reason} {rules : List Rule} {rs : List Reason}
    (h : s.Breaks diagnose rule r) (hs : Finds diagnose s rules rs) :
    Finds diagnose s (rule :: rules) (r :: rs)
  | kept {rule : Rule} {rules : List Rule} {rs : List Reason}
    (h : ∀ r, ¬s.Breaks diagnose rule r) (hs : Finds diagnose s rules rs) :
    Finds diagnose s (rule :: rules) rs

inductive Advises (s : Settings) : List Warning → Prop
  | missing (hr : s.remoteRead = none) : Advises s [.missingRemoteRead]
  | slow {remote : RemoteRead} (hr : s.remoteRead = some remote) (h : 3600 < remote.timeout) :
    Advises s [.largeTimeout remote.timeout]
  | quiet {remote : RemoteRead} (hr : s.remoteRead = some remote) (h : remote.timeout ≤ 3600) :
    Advises s []

end Settings

def Reason.part : Reason → Settings.Part
  | blankServiceName => .serviceName
  | badLogLevel _ _ => .logLevel
  | badAddress _ | zeroTimeout | zeroMaxConns | idleAboveMax _ _ => .remoteRead

namespace Settings

variable {diagnose : String → Option String} {s t : Settings}

namespace Breaks

variable {rule : Rule} {r r' : Reason}

theorem unique (h : s.Breaks diagnose rule r) (h' : s.Breaks diagnose rule r') : r = r' := by
  cases rule with
  | serviceName => exact h.2.trans h'.2.symm
  | logLevel =>
    obtain ⟨_, hd, rfl⟩ := h
    obtain ⟨_, hd', rfl⟩ := h'
    cases hd.symm.trans hd'
    rfl
  | address | timeout | maxConns | idleConns =>
    obtain ⟨_, hr, _, rfl⟩ := h
    obtain ⟨_, hr', _, rfl⟩ := h'
    cases hr.symm.trans hr'
    rfl

theorem part_eq (h : s.Breaks diagnose rule r) : r.part = rule.part := by
  cases rule with
  | serviceName =>
    rw [h.2]
    rfl
  | logLevel =>
    obtain ⟨_, _, rfl⟩ := h
    rfl
  | address | timeout | maxConns | idleConns =>
    obtain ⟨_, _, _, rfl⟩ := h
    rfl

/-- A rule looks at no other part than its own. -/
theorem congr (h : s.Shares t rule.part) (r : Reason) :
    s.Breaks diagnose rule r ↔ t.Breaks diagnose rule r := by
  cases rule with
  | serviceName =>
    have hn : s.serviceName = t.serviceName := h
    simp only [Breaks, hn]
  | logLevel =>
    have hl : s.logLevel = t.logLevel := h
    simp only [Breaks, hl]
  | address | timeout | maxConns | idleConns =>
    have hr : s.remoteRead = t.remoteRead := h
    simp only [Breaks, hr]

end Breaks

namespace Finds

variable {rules more : List Rule} {rs rs' : List Reason}

theorem unique (h : s.Finds diagnose rules rs) (h' : s.Finds diagnose rules rs') : rs = rs' := by
  induction h generalizing rs' with
  | nil =>
    cases h'
    rfl
  | broken hb _ ih =>
    cases h' with
    | broken hb' hs' => rw [hb.unique hb', ih hs']
    | kept hk => exact absurd hb (hk _)
  | kept hk _ ih =>
    cases h' with
    | broken hb' => exact absurd hb' (hk _)
    | kept _ hs' => exact ih hs'

theorem append (h : s.Finds diagnose rules rs) (h' : s.Finds diagnose more rs') :
    s.Finds diagnose (rules ++ more) (rs ++ rs') := by
  induction h with
  | nil => exact h'
  | broken hb _ ih => exact .broken hb ih
  | kept hk _ ih => exact .kept hk ih

/-- The rules about one part find the reasons about it. -/
theorem filter (h : s.Finds diagnose rules rs) (x : Part) :
    s.Finds diagnose (rules.filter (·.part = x)) (rs.filter (·.part = x)) := by
  induction h with
  | nil => exact nil
  | broken hb _ ih =>
    simp only [List.filter_cons, hb.part_eq]
    split_ifs
    · exact broken hb ih
    · exact ih
  | kept hk _ ih =>
    rw [List.filter_cons]
    split_ifs
    · exact kept hk ih
    · exact ih

theorem congr (h : t.Finds diagnose rules rs) (hst : ∀ rule ∈ rules, t.Shares s rule.part) :
    s.Finds diagnose rules rs := by
  induction h with
  | nil => exact nil
  | broken hb _ ih =>
    rw [List.forall_mem_cons] at hst
    exact broken ((Breaks.congr hst.1 _).mp hb) (ih hst.2)
  | kept hk _ ih =>
    rw [List.forall_mem_cons] at hst
    exact kept (fun r hr => hk r ((Breaks.congr hst.1 r).mpr hr)) (ih hst.2)

theorem of_kept (h : ∀ rule ∈ rules, ∀ r, ¬s.Breaks diagnose rule r) :
    s.Finds diagnose rules [] := by
  induction rules with
  | nil => exact nil
  | cons rule rules ih =>
    rw [List.forall_mem_cons] at h
    exact kept h.1 (ih h.2)

theorem mem_iff (h : s.Finds diagnose rules rs) (r : Reason) :
    r ∈ rs ↔ ∃ rule ∈ rules, s.Breaks diagnose rule r := by
  induction h with
  | nil => simp
  | @broken rule r' _ _ hb _ ih =>
    have hr : r = r' ↔ s.Breaks diagnose rule r := by
      constructor
      · rintro rfl
        exact hb
      · exact fun hb' => hb'.unique hb
    simp only [List.mem_cons, exists_eq_or_imp, ih, hr]
  | kept hk _ ih => simp only [List.mem_cons, exists_eq_or_imp, ih, hk r, false_or]

theorem require {rule : Rule} {ok : Bool} {r : Reason}
    (h : ∀ r', s.Breaks diagnose rule r' ↔ ok = false ∧ r' = r) :
    s.Finds diagnose [rule] (RemoteRead.require ok r) := by
  cases ok with
  | true => exact kept (fun r' hr' => nomatch ((h r').mp hr').1) nil
  | false => exact broken ((h r).mpr ⟨rfl, rfl⟩) nil

end Finds

theorem finds_nameReasons : s.Finds diagnose [.serviceName] (nameReasons s.serviceName) := by
  unfold nameReasons
  split_ifs with h
  · exact .broken ⟨List.all_eq_true.mp h, rfl⟩ .nil
  · exact .kept (fun r hr => h (List.all_eq_true.mpr hr.1)) .nil

theorem finds_levelReasons : s.Finds diagnose [.logLevel] (levelReasons diagnose s.logLevel) := by
  unfold levelReasons
  cases h : diagnose s.logLevel with
  | none => exact .kept (by simp [Breaks, h]) .nil
  | some diagnostic => exact .broken ⟨diagnostic, h, rfl⟩ .nil

/-- The checks of a section go through the rules about it one by one. -/
theorem finds_sectionReasons {remote : RemoteRead} (hr : s.remoteRead = some remote) :
    s.Finds diagnose Rule.remoteRead remote.reasons := by
  have haddress : s.Finds diagnose [.address]
      (RemoteRead.require (RemoteRead.hasScheme remote.address) (.badAddress remote.address)) :=
    .require fun r => by
      simp [Breaks, hr, RemoteRead.hasScheme, ← List.isPrefixOf_iff_prefix]
  have htimeout : s.Finds diagnose [.timeout]
      (RemoteRead.require (remote.timeout != 0) .zeroTimeout) :=
    .require fun r => by simp [Breaks, hr]
  have hmost : s.Finds diagnose [.maxConns]
      (RemoteRead.require (remote.maxConns != 0) .zeroMaxConns) :=
    .require fun r => by simp [Breaks, hr]
  have hidle : s.Finds diagnose [.idleConns]
      (RemoteRead.require (remote.maxIdleConns ≤ remote.maxConns)
        (.idleAboveMax remote.maxIdleConns remote.maxConns)) :=
    .require fun r => by simp [Breaks, hr]
  exact ((haddress.append htimeout).append hmost).append hidle

theorem finds_reasonsWith : s.Finds diagnose Rule.all (s.reasonsWith diagnose) := by
  have hr : s.Finds diagnose Rule.remoteRead (s.remoteRead.elim [] RemoteRead.reasons) := by
    cases hr : s.remoteRead with
    | none => exact .of_kept (by simp [Rule.remoteRead, Breaks, hr])
    | some remote => exact finds_sectionReasons hr
  exact (finds_nameReasons.append finds_levelReasons).append hr

theorem finds_all_iff (rs : List Reason) :
    s.Finds diagnose Rule.all rs ↔ s.reasonsWith diagnose = rs := by
  constructor
  · exact finds_reasonsWith.unique
  · rintro rfl
    exact finds_reasonsWith

theorem badLogLevel_mem_reasonsWith_iff (directive diagnostic : String) :
    .badLogLevel directive diagnostic ∈ s.reasonsWith diagnose ↔
      directive = s.logLevel ∧ diagnose s.logLevel = some diagnostic := by
  rw [finds_reasonsWith.mem_iff]
  constructor
  · rintro ⟨rule, _, hb⟩
    cases rule with
    | serviceName => cases hb.2
    | logLevel =>
      obtain ⟨_, hd, h⟩ := hb
      cases h
      exact ⟨rfl, hd⟩
    | address | timeout | maxConns | idleConns =>
      obtain ⟨_, _, _, h⟩ := hb
      cases h
  · rintro ⟨rfl, hd⟩
    exact ⟨.logLevel, by decide, diagnostic, hd, rfl⟩

/-- The reasons about a part of the settings depend on that part alone. -/
theorem filter_part_reasonsWith {x : Part} (h : t.Shares s x) :
    (t.reasonsWith diagnose).filter (·.part = x) =
      (s.reasonsWith diagnose).filter (·.part = x) := by
  have ht : s.Finds diagnose (Rule.all.filter (·.part = x))
      ((t.reasonsWith diagnose).filter (·.part = x)) := by
    apply (finds_reasonsWith.filter x).congr
    intro rule hrule
    rwa [of_decide_eq_true (List.mem_filter.mp hrule).2]
  exact ht.unique (finds_reasonsWith.filter x)

theorem advises_iff (s : Settings) (ws : List Warning) : s.Advises ws ↔ s.warnings = ws := by
  constructor
  · intro h
    cases h with
    | missing hr => simp [warnings, hr]
    | slow hr h =>
      rw [warnings, hr]
      exact if_pos h
    | quiet hr h =>
      rw [warnings, hr]
      exact if_neg (UInt64.not_lt.mpr h)
  · rintro rfl
    cases hr : s.remoteRead with
    | none =>
      rw [warnings, hr]
      exact .missing hr
    | some remote =>
      rw [warnings, hr, Option.elim_some, RemoteRead.warnings]
      split_ifs with h
      · exact .slow hr h
      · exact .quiet hr (UInt64.not_lt.mp h)

/-- Settings are accepted where going through the rules finds nothing, and then with the advice that
there is; otherwise all that is found is reported, and no advice with it. Whatever settings share a
part, the reasons about this part are the same. -/
theorem every_rule_reported (diagnose : String → Option String) (s : Settings) :
    (∀ rs, s.reasonsWith diagnose = rs ↔ s.Finds diagnose Rule.all rs) ∧
      (∀ ws, s.validateWith diagnose = .ok ws ↔ s.Finds diagnose Rule.all [] ∧ s.Advises ws) ∧
      (∀ rs, s.validateWith diagnose = .error rs ↔ s.Finds diagnose Rule.all rs ∧ rs ≠ []) ∧
      ∀ (t : Settings) x, t.Shares s x →
        (t.reasonsWith diagnose).filter (·.part = x) =
          (s.reasonsWith diagnose).filter (·.part = x) := by
  refine ⟨fun rs => (finds_all_iff rs).symm, ?_, ?_, fun _ _ => filter_part_reasonsWith⟩
  · intro ws
    rw [validateWith_eq_ok_iff, finds_all_iff, advises_iff]
  · intro rs
    rw [validateWith_eq_error_iff, finds_all_iff]

/-- Settings that break all rules at once, the last two of them by the same number. -/
example :
    let remote : RemoteRead := { address := "mimir:8080", timeout := 0, maxConns := 0 }
    let s : Settings := { serviceName := "\t", logLevel := "wirex=loud", remoteRead := some remote }
    s.reasonsWith (fun _ => some "no such level") =
      [.blankServiceName, .badLogLevel "wirex=loud" "no such level", .badAddress "mimir:8080",
        .zeroTimeout, .zeroMaxConns, .idleAboveMax 10 0] := by
  decide +kernel

end Settings
end FaultCodec
