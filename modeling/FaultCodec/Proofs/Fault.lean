import FaultCodec.Fault

/-!
# Messages and equivalent faults

Wrapping looks at nothing but the message of the cause, so it cannot tell equivalent faults apart.
-/

namespace FaultCodec

def Cause.text : Cause → String
  | foreign text => text
  | fault f => f.message

namespace Fault

theorem rendered_equiv (f : Fault) : rendered f.kind f.message ≈ f := ⟨rfl, rfl⟩

@[simp] theorem label_raise (kind : Kind) (text : String) :
    (raise kind text).label = ⟨kind, text, .raised⟩ := rfl

@[simp] theorem cause?_raise (kind : Kind) (text : String) : (raise kind text).cause? = none := rfl

@[simp] theorem label_withCause (f : Fault) (c : Cause) : (f.withCause c).label = f.label := by
  cases c <;> rfl

@[simp] theorem cause?_withCause (f : Fault) (c : Cause) : (f.withCause c).cause? = some c := by
  cases c <;> rfl

theorem message_raise (kind : Kind) (text : String) :
    (raise kind text).message = if text = "" then "" else kind.code.heading text := rfl

theorem message_raise_of_ne_empty (kind : Kind) {text : String} (h : text ≠ "") :
    (raise kind text).message = kind.code.heading text := by
  rw [message_raise, if_neg h]

theorem message_withCause (f : Fault) (c : Cause) :
    (f.withCause c).message = f.label.before c.text := by
  cases c <;> rfl

/-- Whatever a fault is wrapped in, its message alone counts. -/
theorem message_withCause_congr (f : Fault) {a b : Fault} (h : a.message = b.message) :
    (f.withCause (.fault a)).message = (f.withCause (.fault b)).message := by
  change f.label.before a.message = f.label.before b.message
  rw [h]

theorem withCause_equiv (f : Fault) {a b : Fault} (h : a ≈ b) :
    f.withCause (.fault a) ≈ f.withCause (.fault b) := by
  refine ⟨?_, message_withCause_congr f h.2⟩
  rw [kind_withCause, kind_withCause]

end Fault
end FaultCodec
