import FaultCodec.Log.Event
import Mathlib.Algebra.GroupWithZero.Nat

/-!
# Lines of events

An event takes one line of a text log as long as no part of it holds a line feed, and one line more
for each line feed that its values hold.
-/

namespace FaultCodec
namespace Log

/-- A text without line feeds. -/
def IsLine (s : String) : Prop := '\n' ∉ s.toList

instance (s : String) : Decidable (IsLine s) := inferInstanceAs (Decidable (_ ∉ _))

@[simp] theorem isLine_append (s t : String) : IsLine (s ++ t) ↔ IsLine s ∧ IsLine t := by
  simp [IsLine, not_or]

theorem isLine_join {ss : List String} (h : ∀ s ∈ ss, IsLine s) : IsLine (String.join ss) := by
  induction ss with
  | nil => decide
  | cons s ss ih =>
    rw [String.join_cons, isLine_append]
    exact ⟨h s List.mem_cons_self, ih fun t ht => h t (List.mem_cons_of_mem s ht)⟩

/-- The number of line feeds in a text. -/
def lineFeeds (s : String) : Nat := s.toList.count '\n'

@[simp] theorem lineFeeds_append (s t : String) :
    lineFeeds (s ++ t) = lineFeeds s + lineFeeds t := by
  simp [lineFeeds]

@[simp] theorem lineFeeds_eq_zero_iff {s : String} : lineFeeds s = 0 ↔ IsLine s :=
  List.count_eq_zero

theorem lineFeeds_join (ss : List String) :
    lineFeeds (String.join ss) = (ss.map lineFeeds).sum := by
  induction ss with
  | nil => rfl
  | cons s ss ih => rw [String.join_cons, lineFeeds_append, ih, List.map_cons, List.sum_cons]

theorem length_splitOn (a : Char) (cs : List Char) : (cs.splitOn a).length = cs.count a + 1 := by
  induction cs with
  | nil => rfl
  | cons c cs ih =>
    rw [List.splitOn] at ih ⊢
    rw [List.splitOnP_cons_eq_if_modifyHead, List.count_cons]
    split
    · rw [List.length_cons, ih]
    · rw [List.length_modifyHead, ih, Nat.add_zero]

namespace Event

theorem isLine_text {e : Event} (ht : IsLine e.target) (hm : IsLine e.message)
    (hf : ∀ f ∈ e.fields, IsLine f.1 ∧ IsLine f.2.show) : IsLine e.text := by
  have hl : IsLine e.level.column := by
    cases e.level <;> decide
  have hj : IsLine (String.join (e.fields.map fun f => " " ++ f.1 ++ "=" ++ f.2.show)) := by
    apply isLine_join
    intro s hs
    obtain ⟨f, hmem, rfl⟩ := List.mem_map.mp hs
    simp only [isLine_append]
    exact ⟨⟨⟨by decide, (hf f hmem).1⟩, by decide⟩, (hf f hmem).2⟩
  simp only [text, isLine_append]
  exact ⟨⟨⟨⟨⟨hl, by decide⟩, ht⟩, by decide⟩, hm⟩, hj⟩

theorem lines_of_isLine {e : Event} (h : IsLine e.text) : e.lines = [e.text] := by
  have hs : e.text.toList.splitOn '\n' = [e.text.toList] := by
    apply List.splitOnP_eq_singleton
    intro c hc
    exact beq_eq_false_iff_ne.mpr fun he => h (he ▸ hc)
  simp [lines, hs]

/-- Every line feed in the text form starts one more line. -/
theorem length_lines (e : Event) : e.lines.length = lineFeeds e.text + 1 := by
  rw [lines, List.length_map, length_splitOn]
  rfl

theorem lineFeeds_text {e : Event} (ht : IsLine e.target) (hm : IsLine e.message) :
    lineFeeds e.text = (e.fields.map fun f => lineFeeds f.1 + lineFeeds f.2.show).sum := by
  have hl : lineFeeds e.level.column = 0 := by
    cases e.level <;> decide
  have hf : ∀ f : String × Datum, lineFeeds (" " ++ f.1 ++ "=" ++ f.2.show) =
      lineFeeds f.1 + lineFeeds f.2.show := by
    intro f
    have hs : lineFeeds " " = 0 := by decide
    have he : lineFeeds "=" = 0 := by decide
    simp only [lineFeeds_append, hs, he, Nat.zero_add, Nat.add_zero]
  have hs : lineFeeds " " = 0 := by decide
  have hc : lineFeeds ": " = 0 := by decide
  simp only [text, lineFeeds_append, lineFeeds_join, List.map_map, hl, hs, hc,
    lineFeeds_eq_zero_iff.mpr ht, lineFeeds_eq_zero_iff.mpr hm, Nat.zero_add]
  exact congrArg List.sum (List.map_congr_left fun f _ => hf f)

end Event
end Log
end FaultCodec
