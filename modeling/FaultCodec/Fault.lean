import FaultCodec.Kind

/-!
# Faults

A fault has a kind, a text and at most one cause, which is either another fault or something foreign
of which only the text is known. A fault that was raised here composes its message from its code,
its text and the message of its cause. A fault that was rebuilt from the message of a peer repeats
that message and nothing else, even when a cause has been attached to it since.

Two faults are equivalent when neither the kind nor the message tells them apart.
-/

namespace FaultCodec

/-- Whether a text is still to be composed into a message, or is a message already. -/
inductive Wording where
  | raised
  | rendered
  deriving Repr, DecidableEq

/-- A fault without its cause. -/
structure Label where
  kind : Kind
  text : String
  wording : Wording
  deriving Repr, DecidableEq

namespace Label

/-- Code and text of a label, as a message starts. -/
def heading (l : Label) : String := l.kind.code.heading l.text

/-- The message of a label without a cause: none at all if it has no text either. -/
def alone (l : Label) : String :=
  match l.wording with
  | .rendered => l.text
  | .raised => if l.text = "" then "" else l.heading

/-- The message of a label before the text of its cause. -/
def before (l : Label) (cause : String) : String :=
  match l.wording with
  | .rendered => l.text
  | .raised => l.heading ++ ": " ++ cause

end Label

inductive Fault where
  | bare (label : Label)
  | foreign (label : Label) (text : String)
  | chained (label : Label) (cause : Fault)
  deriving Repr, DecidableEq

inductive Cause where
  | foreign (text : String)
  | fault (f : Fault)
  deriving Repr, DecidableEq

namespace Fault

/-- A fault that is raised here. -/
def raise (kind : Kind) (text : String) : Fault := bare ⟨kind, text, .raised⟩

/-- A fault that repeats the message of a peer. -/
def rendered (kind : Kind) (text : String) : Fault := bare ⟨kind, text, .rendered⟩

def label : Fault → Label
  | bare l => l
  | foreign l _ => l
  | chained l _ => l

def kind (f : Fault) : Kind := f.label.kind

def code (f : Fault) : Code := f.kind.code

def reason? (f : Fault) : Option String := f.kind.reason?

def cause? : Fault → Option Cause
  | bare _ => none
  | foreign _ text => some (.foreign text)
  | chained _ cause => some (.fault cause)

/-- The fault with the given cause in place of the one it had. -/
def withCause (f : Fault) : Cause → Fault
  | .foreign text => foreign f.label text
  | .fault cause => chained f.label cause

def message : Fault → String
  | bare l => l.alone
  | foreign l text => l.before text
  | chained l cause => l.before cause.message

/-- The texts of the cause, of its cause and so on. -/
def sources : Fault → List String
  | bare _ => []
  | foreign _ text => [text]
  | chained _ cause => cause.message :: cause.sources

def causeText? (f : Fault) : Option String := f.sources.head?

def inspect (f : Fault) : String :=
  "Error \x7b kind: " ++ f.kind.inspect ++ ", message: " ++ Text.quote f.label.text ++
    (match f.causeText? with
      | none => ""
      | some text => ", cause: " ++ Text.quote text) ++ " \x7d"

/-- Equivalent faults have the same kind, reason included, and the same message. -/
instance instSetoid : Setoid Fault where
  r a b := a.kind = b.kind ∧ a.message = b.message
  iseqv := {
    refl := fun _ => ⟨rfl, rfl⟩
    symm := fun h => ⟨h.1.symm, h.2.symm⟩
    trans := fun h k => ⟨h.1.trans k.1, h.2.trans k.2⟩ }

theorem equiv_iff (a b : Fault) : a ≈ b ↔ a.kind = b.kind ∧ a.message = b.message := Iff.rfl

instance (a b : Fault) : Decidable (a ≈ b) :=
  decidable_of_iff _ (equiv_iff a b).symm

@[simp] theorem kind_raise (k : Kind) (t : String) : (raise k t).kind = k := rfl

@[simp] theorem kind_withCause (f : Fault) (c : Cause) : (f.withCause c).kind = f.kind := by
  cases c <;> rfl

@[simp] theorem withCause_withCause (f : Fault) (c d : Cause) :
    (f.withCause c).withCause d = f.withCause d := by
  cases c <;> cases d <;> rfl

end Fault
end FaultCodec
