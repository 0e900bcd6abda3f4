import FaultCodec.Proofs.Settings.Layers

/-!
# The algebra of layers

Laying one configuration over another is associative and idempotent, and the defaults are its unit.
Layers may therefore be joined two at a time in any bracketing: every field ends up with the last
value that is not its default, and the section is that of the last layer that has one.
-/

namespace FaultCodec
namespace Settings

section Pick

variable {α : Type} [DecidableEq α] {standard : α}

theorem pick_of_ne {overlay : α} (h : overlay ≠ standard) (base : α) :
    pick standard base overlay = overlay :=
  if_pos h

theorem pick_standard_base (a : α) : pick standard standard a = a := by
  by_cases h : a = standard
  · rw [h, pick_self]
  · exact pick_of_ne h standard

theorem pick_assoc (a b c : α) :
    pick standard (pick standard a b) c = pick standard a (pick standard b c) := by
  by_cases h : c = standard
  · rw [h, pick_standard, pick_standard]
  · rw [pick_of_ne h, pick_of_ne h, pick_of_ne h]

/-- The last of some values that is not the default; the default if there is none. -/
def lastPicked (standard : α) (values : List α) : α :=
  (values.filter (· ≠ standard)).getLast?.getD standard

theorem foldl_pick (base : α) (values : List α) :
    values.foldl (pick standard) base = (values.filter (· ≠ standard)).getLast?.getD base := by
  induction values generalizing base with
  | nil => rfl
  | cons value values ih =>
    rw [List.foldl_cons, ih]
    by_cases h : value = standard
    · simp [h]
    · simp [pick_of_ne h, h, List.getLast?_cons]

end Pick

theorem merge_assoc (a b c : Settings) : merge (merge a b) c = merge a (merge b c) := by
  unfold merge
  rw [pick_assoc, pick_assoc, pick_assoc, Option.or_assoc]

theorem merge_standard_left (a : Settings) : merge standard a = a := by
  unfold merge
  rw [pick_standard_base, pick_standard_base, pick_standard_base]
  exact congrArg _ Option.or_none

theorem merge_standard_right (a : Settings) : merge a standard = a := by
  unfold merge
  rw [pick_standard, pick_standard, pick_standard]
  exact congrArg _ Option.none_or

theorem merge_self (a : Settings) : merge a a = a := by
  unfold merge
  rw [pick_self, pick_self, pick_self, Option.or_self]

instance : Std.Associative merge := ⟨merge_assoc⟩

/-- Configurations that are laid over each other two at a time, in some bracketing. -/
inductive Stack where
  | single (s : Settings)
  | joined (base overlay : Stack)

namespace Stack

/-- The configurations from the lowest to the highest. -/
def layers : Stack → List Settings
  | single s => [s]
  | joined base overlay => base.layers ++ overlay.layers

/-- The result, joined as the stack is bracketed. -/
def merged : Stack → Settings
  | single s => s
  | joined base overlay => merge base.merged overlay.merged

theorem merged_eq_foldl (t : Stack) : t.merged = t.layers.foldl merge standard := by
  induction t with
  | single s => exact (merge_standard_left s).symm
  | joined base overlay ihb iho =>
    calc merge base.merged overlay.merged
        = merge (base.layers.foldl merge standard) (overlay.layers.foldl merge standard) := by
          rw [ihb, iho]
      _ = overlay.layers.foldl merge (merge (base.layers.foldl merge standard) standard) :=
          List.foldl_assoc.symm
      _ = (base.layers ++ overlay.layers).foldl merge standard := by
          rw [merge_standard_right, List.foldl_append]

end Stack

/-- A field that is picked by itself has the last value of the layers that is not its default. -/
theorem field_foldl_merge {α : Type} [DecidableEq α] {field : Settings → α}
    (h : ∀ base overlay,
      field (merge base overlay) = pick (field standard) (field base) (field overlay))
    (layers : List Settings) :
    field (layers.foldl merge standard) = lastPicked (field standard) (layers.map field) := by
  calc field (layers.foldl merge standard)
      = layers.foldl (fun value s => pick (field standard) value (field s)) (field standard) :=
        (List.foldl_hom field fun base overlay => (h base overlay).symm).symm
    _ = (layers.map field).foldl (pick (field standard)) (field standard) :=
        List.foldl_map.symm
    _ = lastPicked (field standard) (layers.map field) := foldl_pick _ _

/-- Laying configurations over each other is an idempotent monoid whose unit are the defaults.
However layers are bracketed, their result is the one from the lowest layer to the highest. Each of
its fields has the last value that is not the default, and its section is that of the last layer
that has one. -/
theorem merge_laws :
    (∀ a b c, merge (merge a b) c = merge a (merge b c)) ∧
    (∀ a, merge standard a = a ∧ merge a standard = a ∧ merge a a = a) ∧
    (∀ t : Stack, t.merged = t.layers.foldl merge standard) ∧
    ∀ layers : List Settings,
      (layers.foldl merge standard).serviceName =
        lastPicked "wirex" (layers.map serviceName) ∧
      (layers.foldl merge standard).logLevel = lastPicked "info" (layers.map logLevel) ∧
      (layers.foldl merge standard).logFormat = lastPicked .text (layers.map logFormat) ∧
      (layers.foldl merge standard).remoteRead = lastRemoteRead? layers := by
  refine ⟨merge_assoc, ?_, Stack.merged_eq_foldl, ?_⟩
  · intro a
    exact ⟨merge_standard_left a, merge_standard_right a, merge_self a⟩
  · intro layers
    refine ⟨?_, ?_, ?_, ?_⟩
    · apply field_foldl_merge
      intro base overlay
      rfl
    · apply field_foldl_merge
      intro base overlay
      rfl
    · apply field_foldl_merge
      intro base overlay
      rfl
    · rw [remoteRead_foldl_merge, lastRemoteRead?_cons]
      exact Option.or_none

end Settings
end FaultCodec
