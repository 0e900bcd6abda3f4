import FaultCodec.Log.Rule
import FaultCodec.Settings

/-!
# Rules for settings

Every broken rule gives one reason, in a fixed order, and no rule hides another. Settings that break
none are accepted, possibly with warnings. The check of the log filter is a parameter, so that what
is said about the rules holds for every filter language.
-/

namespace FaultCodec

/-- A broken rule. -/
inductive Reason where
  | blankServiceName
  | badLogLevel (directive diagnostic : String)
  | badAddress (address : String)
  | zeroTimeout
  | zeroMaxConns
  | idleAboveMax (idle most : UInt64)
  deriving Repr, DecidableEq

def Reason.message : Reason → String
  | .blankServiceName => "service_name must not be empty"
  | .badLogLevel directive diagnostic => "invalid log_level '" ++ directive ++ "': " ++ diagnostic
  | .badAddress address =>
    "remote_read: address '" ++ address ++ "' must start with http:// or https://"
  | .zeroTimeout => "remote_read: timeout_secs must be greater than zero"
  | .zeroMaxConns => "remote_read: max_conns must be greater than zero"
  | .idleAboveMax idle most =>
    "remote_read: max_idle_conns (" ++ toString idle.toNat ++ ") exceeds max_conns (" ++
      toString most.toNat ++ ")"

/-- Advice about settings that are accepted. -/
inductive Warning where
  | missingRemoteRead
  | largeTimeout (seconds : UInt64)
  deriving Repr, DecidableEq

def Warning.message : Warning → String
  | .missingRemoteRead => "missing optional field 'remote_read': remote-read queries are disabled"
  | .largeTimeout seconds =>
    "remote read has a large timeout (" ++ toString seconds.toNat ++ "s)"

namespace Reason

def summary (reasons : List Reason) : String :=
  "config validation failed: " ++ Text.quoteList (reasons.map message)

end Reason

namespace RemoteRead

def hasScheme (address : String) : Bool :=
  "http://".toList.isPrefixOf address.toList || "https://".toList.isPrefixOf address.toList

/-- Timeouts above one hour are warned about. -/
def largeTimeout : UInt64 := 3600

/-- One reason if a rule is broken. -/
def require (ok : Bool) (r : Reason) : List Reason := if ok then [] else [r]

def reasons (r : RemoteRead) : List Reason :=
  require (hasScheme r.address) (.badAddress r.address) ++
  require (r.timeout != 0) .zeroTimeout ++
  require (r.maxConns != 0) .zeroMaxConns ++
  require (r.maxIdleConns ≤ r.maxConns) (.idleAboveMax r.maxIdleConns r.maxConns)

def warnings (r : RemoteRead) : List Warning :=
  if largeTimeout < r.timeout then [.largeTimeout r.timeout] else []

end RemoteRead

namespace Settings

def nameReasons (serviceName : String) : List Reason :=
  if Text.isBlankText serviceName then [.blankServiceName] else []

def levelReasons (diagnose : String → Option String) (logLevel : String) : List Reason :=
  match diagnose logLevel with
  | none => []
  | some diagnostic => [.badLogLevel logLevel diagnostic]

/-- The reasons of the broken rules, for any check of log filters. -/
def reasonsWith (diagnose : String → Option String) (s : Settings) : List Reason :=
  nameReasons s.serviceName ++ levelReasons diagnose s.logLevel ++
    s.remoteRead.elim [] RemoteRead.reasons

def warnings (s : Settings) : List Warning :=
  s.remoteRead.elim [.missingRemoteRead] RemoteRead.warnings

/-- The warnings of settings that break no rule, or else the reasons. -/
def validateWith (diagnose : String → Option String) (s : Settings) :
    Except (List Reason) (List Warning) :=
  match s.reasonsWith diagnose with
  | [] => .ok s.warnings
  | r :: rs => .error (r :: rs)

/-- The check of settings whose log filter is written as directives. -/
def validate (s : Settings) : Except (List Reason) (List Warning) :=
  s.validateWith Log.FilterReader.directives.diagnose

theorem validateWith_eq_ok_iff (diagnose : String → Option String) (s : Settings)
    (ws : List Warning) :
    s.validateWith diagnose = .ok ws ↔ s.reasonsWith diagnose = [] ∧ s.warnings = ws := by
  unfold validateWith
  cases s.reasonsWith diagnose <;> simp

theorem validateWith_eq_error_iff (diagnose : String → Option String) (s : Settings)
    (rs : List Reason) :
    s.validateWith diagnose = .error rs ↔ s.reasonsWith diagnose = rs ∧ rs ≠ [] := by
  unfold validateWith
  cases s.reasonsWith diagnose <;> simp +contextual [eq_comm]

end Settings
end FaultCodec
