import FaultCodec.Log.Event

/-!
# Log filters

A filter decides which events are kept. The language in which filters are written is left open: a
reader makes the filter of a text, or says why the text is none.
-/

namespace FaultCodec
namespace Log

/-- Up to which level events are kept; nothing at all if there is none. -/
abbrev Threshold := Option Level

def Threshold.keeps (t : Threshold) (l : Level) : Bool :=
  match t with
  | none => false
  | some most => l.verbosity ≤ most.verbosity

structure Filter where
  keeps : Event → Bool
  /-- Whether events of a target and a level are kept, as far as that can be told without their
  fields. -/
  enables : String → Level → Bool

/-- Why a text is no filter. -/
structure FilterError where
  message : String
  deriving Repr, DecidableEq

abbrev FilterReader := String → Except FilterError Filter

namespace FilterReader

/-- The error of a text that is not a filter. -/
def diagnose (read : FilterReader) (text : String) : Option String :=
  match read text with
  | .ok _ => none
  | .error e => some e.message

theorem diagnose_eq_some_iff (read : FilterReader) (text diagnostic : String) :
    read.diagnose text = some diagnostic ↔ read text = .error ⟨diagnostic⟩ := by
  unfold diagnose
  cases read text with
  | ok f => simp
  | error e =>
    obtain ⟨message⟩ := e
    simp

end FilterReader
end Log
end FaultCodec
