import FaultCodec.Proofs.Fault

/-!
# Chains of causes

Faults that were raised here form a chain where each of them is the cause of the one before it. The
first fault shows the whole chain in its message, one segment for each fault and what the last one
was caused by; a last fault with neither a text nor a cause leaves its segment empty. Causes that
were attached before the last one are not seen any more.
-/

namespace FaultCodec
namespace Fault

/-- The fault with some causes attached in turn. -/
def withCauses (f : Fault) (causes : List Cause) : Fault := causes.foldl withCause f

theorem withCause_withCauses (f : Fault) (causes : List Cause) (c : Cause) :
    (f.withCauses causes).withCause c = f.withCause c := by
  induction causes generalizing f with
  | nil => rfl
  | cons d causes ih =>
    have hd : ((f.withCause d).withCauses causes).withCause c = (f.withCause d).withCause c := ih _
    rw [withCause_withCause] at hd
    exact hd

/-- A chain from its first fault down: the faults below that one, each the last cause that was
attached to the one above it, and the text of what the last one was caused by, if anything. -/
inductive Chain : Fault → List Fault → Option String → Prop
  | bare (kind : Kind) (text : String) : Chain (raise kind text) [] none
  | foreign (kind : Kind) (text : String) (earlier : List Cause) (root : String) :
    Chain (((raise kind text).withCauses earlier).withCause (.foreign root)) [] (some root)
  | chained {g : Fault} {below : List Fault} {root? : Option String} (kind : Kind) (text : String)
    (earlier : List Cause) (h : Chain g below root?) :
    Chain (((raise kind text).withCauses earlier).withCause (.fault g)) (g :: below) root?

/-- What a fault adds to the message of a chain. -/
def segment (f : Fault) : String :=
  if f.label.text = "" ∧ f.cause? = none then ""
  else "wire:" ++ f.code.name ++ ": " ++ f.label.text

theorem segment_raise (kind : Kind) (text : String) :
    segment (raise kind text) = (raise kind text).message := by
  rw [message_raise]
  simp [segment, Code.heading, code]

theorem segment_withCause (f : Fault) (c : Cause) :
    segment (f.withCause c) = f.code.heading f.label.text := by
  simp [segment, Code.heading, code]

theorem message_raise_withCause (kind : Kind) (text : String) (c : Cause) :
    ((raise kind text).withCause c).message =
      segment ((raise kind text).withCause c) ++ ": " ++ c.text := by
  rw [message_withCause, segment_withCause]
  rfl

theorem message_raise_withCause_ne_empty (kind : Kind) (text : String) (c : Cause) :
    ((raise kind text).withCause c).message ≠ "" := by
  simp [message_raise_withCause]

namespace Chain

variable {f : Fault} {below : List Fault} {root? : Option String}

theorem message_eq (h : Chain f below root?) :
    f.message = ": ".intercalate ((f :: below).map segment ++ root?.toList) := by
  induction h with
  | bare kind text => simp [segment_raise]
  | foreign kind text earlier root =>
    rw [withCause_withCauses, message_raise_withCause]
    simp [Cause.text]
  | @chained g below root? kind text earlier h ih =>
    rw [withCause_withCauses, message_raise_withCause, Cause.text, ih]
    simp only [List.map_cons, List.cons_append, String.intercalate_cons_cons]

theorem sources_eq (h : Chain f below root?) :
    f.sources = below.map message ++ root?.toList := by
  induction h with
  | bare kind text => rfl
  | foreign kind text earlier root => rfl
  | @chained g below root? kind text earlier h ih =>
    have hs : (((raise kind text).withCauses earlier).withCause (.fault g)).sources =
        g.message :: g.sources := rfl
    rw [hs, ih]
    rfl

theorem message_eq_empty_iff (h : Chain f below root?) :
    f.message = "" ↔ below = [] ∧ f.label.text = "" ∧ f.cause? = none := by
  cases h with
  | bare kind text =>
    rw [message_raise]
    simp [Code.heading]
  | foreign kind text earlier root | chained kind text earlier =>
    rw [withCause_withCauses]
    simp [message_raise_withCause_ne_empty]

end Chain

/-- The message of a chain is made of the segments of its faults and the text of what the last one
was caused by. The texts of its sources are the messages of the faults below the first one, and then
that text. A message is empty where a fault with neither a text nor a cause stands alone, and only
there. Causes that are attached to a fault before its last one change nothing. -/
theorem chain_in_message {f : Fault} {below : List Fault} {root? : Option String}
    (h : Chain f below root?) :
    f.message = ": ".intercalate ((f :: below).map segment ++ root?.toList) ∧
      f.sources = below.map message ++ root?.toList ∧
      (f.message = "" ↔ below = [] ∧ f.label.text = "" ∧ f.cause? = none) ∧
      ∀ earlier c, (f.withCauses earlier).withCause c = f.withCause c :=
  ⟨h.message_eq, h.sources_eq, h.message_eq_empty_iff, f.withCause_withCauses⟩

def idle : Fault := raise .disabled ""

def retried : Fault := (raise .internal "retry").withCause (.fault idle)

/-- A fault without a text, whose first cause has been replaced. -/
def stalled : Fault :=
  ((raise .conflict "").withCauses [.foreign "lost"]).withCause (.fault retried)

/-- The first fault has a segment although it has no text, the last one has none. -/
theorem chain_in_message_stalled :
    Chain stalled [retried, idle] none ∧
      stalled.message = "wire:Aborted: : wire:Internal: retry: " ∧
      stalled.sources = ["wire:Internal: retry: ", ""] := by
  have h : Chain stalled [retried, idle] none :=
    .chained .conflict "" [.foreign "lost"] (.chained .internal "retry" [] (.bare .disabled ""))
  obtain ⟨hm, hs, _, _⟩ := chain_in_message h
  refine ⟨h, ?_, ?_⟩
  · rw [hm]
    decide
  · rw [hs]
    decide

end Fault
end FaultCodec
