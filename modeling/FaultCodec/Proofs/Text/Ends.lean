import FaultCodec.Text.Blank
import Mathlib.Data.List.DropRight

/-!
# Ends of texts

A text ends with another one if that is left when some characters are taken off its front. Trimming
keeps this relation, although it may shorten both texts at both ends, and trimming twice is trimming
once.
-/

namespace FaultCodec
namespace Text

/-- The first text ends with the second one. -/
def EndsWith (s t : String) : Prop := t.toList <:+ s.toList

instance (s t : String) : Decidable (EndsWith s t) :=
  inferInstanceAs (Decidable (t.toList <:+ s.toList))

theorem EndsWith.refl (s : String) : EndsWith s s := List.suffix_refl _

theorem EndsWith.trans {s t u : String} (hst : EndsWith s t) (htu : EndsWith t u) :
    EndsWith s u :=
  List.IsSuffix.trans htu hst

theorem endsWith_empty (s : String) : EndsWith s "" := List.nil_suffix

theorem endsWith_append (front s : String) : EndsWith (front ++ s) s := by
  rw [EndsWith, String.toList_append]
  exact List.suffix_append _ _

theorem EndsWith.append {s t : String} (h : EndsWith s t) (front : String) :
    EndsWith (front ++ s) t :=
  (endsWith_append front s).trans h

theorem trimStart_suffix (cs : List Char) : trimStart cs <:+ cs := List.dropWhile_suffix _

/-- Blanks that are taken off the front of the longer text lie before the shorter one, or are blanks
of the shorter one as well. -/
theorem trimStart_isSuffix {s t : List Char} (h : s <:+ t) : trimStart s <:+ trimStart t := by
  obtain ⟨front, rfl⟩ := h
  induction front with
  | nil => exact List.suffix_refl _
  | cons c front ih =>
    rw [List.cons_append]
    by_cases hc : isBlank c = true
    · rw [trimStart_cons_of_blank _ hc]
      exact ih
    · rw [trimStart_cons_of_not_blank _ (by simpa using hc)]
      exact (trimStart_suffix s).trans (List.suffix_append (c :: front) s)

/-- Blanks at the front are taken off alone where anything else follows them. -/
theorem trimStart_append_of_ne_nil {s : List Char} (h : trimStart s ≠ []) (back : List Char) :
    trimStart (s ++ back) = trimStart s ++ back := by
  rw [trimStart, List.dropWhile_append, if_neg (by simpa [trimStart] using h)]
  rfl

theorem trimEnd_append (front s : List Char) :
    trimEnd s = [] ∨ trimEnd (front ++ s) = front ++ trimEnd s := by
  by_cases h : trimStart s.reverse = []
  · left
    simp [trimEnd, h]
  · right
    simp [trimEnd, trimStart_append_of_ne_nil h]

theorem trimEnd_isSuffix {s t : List Char} (h : s <:+ t) : trimEnd s <:+ trimEnd t := by
  obtain ⟨front, rfl⟩ := h
  rcases trimEnd_append front s with hs | hs
  · rw [hs]
    exact List.nil_suffix
  · rw [hs]
    exact List.suffix_append _ _

theorem EndsWith.trim {s t : String} (h : EndsWith s t) : EndsWith (trim s) (trim t) := by
  have ht : trimEnd (trimStart t.toList) <:+ trimEnd (trimStart s.toList) :=
    trimEnd_isSuffix (trimStart_isSuffix h)
  simpa [EndsWith, Text.trim] using ht

/-- Untrimmed, the first text does not end with the second one. -/
example : EndsWith (trim "\u2003429: slow down\n") (trim " slow down\n\n") := by
  decide

theorem trimEnd_trimEnd (cs : List Char) : trimEnd (trimEnd cs) = trimEnd cs :=
  List.rdropWhile_idempotent isBlank cs

theorem trimEnd_cons_of_not_blank {c : Char} (cs : List Char) (h : isBlank c = false) :
    trimEnd (c :: cs) = c :: trimEnd cs := by
  rcases trimEnd_append [c] cs with hs | hs
  · -- everything behind the first character is blank
    have hr : trimStart cs.reverse = [] := by simpa [trimEnd] using hs
    have hc : trimStart (cs.reverse ++ [c]) = [c] := by
      rw [trimStart, List.dropWhile_append, if_pos (by simpa [trimStart] using hr)]
      exact trimStart_cons_of_not_blank [] h
    simp [trimEnd, hc, hr]
  · exact hs

theorem trimStart_eq_nil_or_cons (cs : List Char) :
    trimStart cs = [] ∨ ∃ c rest, trimStart cs = c :: rest ∧ isBlank c = false := by
  induction cs with
  | nil => exact Or.inl rfl
  | cons c cs ih =>
    by_cases h : isBlank c = true
    · rw [trimStart_cons_of_blank cs h]
      exact ih
    · have hc : isBlank c = false := by simpa using h
      exact Or.inr ⟨c, cs, trimStart_cons_of_not_blank cs hc, hc⟩

@[simp] theorem trim_trim (s : String) : trim (trim s) = trim s := by
  have h : trimEnd (trimStart (trimEnd (trimStart s.toList))) = trimEnd (trimStart s.toList) := by
    rcases trimStart_eq_nil_or_cons s.toList with hs | ⟨c, rest, hs, hc⟩
    · rw [hs]
      rfl
    · rw [hs, trimEnd_cons_of_not_blank rest hc, trimStart_cons_of_not_blank _ hc,
        trimEnd_cons_of_not_blank _ hc, trimEnd_trimEnd]
  simp [trim, h]

theorem trim_eq_empty_iff (s : String) : trim s = "" ↔ isBlankText s = true := by
  rw [trim, String.ofList_eq_empty_iff, isBlankText, List.all_eq_true]
  rcases trimStart_eq_nil_or_cons s.toList with h | ⟨c, rest, h, hc⟩
  · have hs := (trimStart_eq_nil_iff _).mp h
    simpa [h, trimEnd] using hs
  · rw [h, trimEnd_cons_of_not_blank rest hc]
    constructor
    · intro he
      cases he
    · intro hs
      rw [(trimStart_eq_nil_iff _).mpr hs] at h
      cases h

theorem trimEnd_append_of_blank {back : List Char} (h : ∀ c ∈ back, isBlank c = true)
    (cs : List Char) : trimEnd (cs ++ back) = trimEnd cs := by
  have hr : ∀ c ∈ back.reverse, isBlank c = true := fun c hc => h c (List.mem_reverse.mp hc)
  rw [trimEnd, trimEnd, List.reverse_append, trimStart, List.dropWhile_append_of_pos hr]
  rfl

theorem trim_between_blank {before after : String} (hb : isBlankText before = true)
    (ha : isBlankText after = true) (s : String) : trim (before ++ s ++ after) = trim s := by
  have hb : ∀ c ∈ before.toList, isBlank c = true := List.all_eq_true.mp hb
  have ha : ∀ c ∈ after.toList, isBlank c = true := List.all_eq_true.mp ha
  have hstart : trimStart (before.toList ++ (s.toList ++ after.toList)) =
      trimStart (s.toList ++ after.toList) := List.dropWhile_append_of_pos hb
  rw [trim, trim, String.toList_append, String.toList_append, List.append_assoc, hstart]
  congr 1
  by_cases h : trimStart s.toList = []
  · -- nothing but blanks is left of the text either
    have hs := (trimStart_eq_nil_iff _).mp h
    have hall : trimStart (s.toList ++ after.toList) = [] := by
      rw [trimStart, List.dropWhile_append_of_pos hs]
      exact (trimStart_eq_nil_iff _).mpr ha
    rw [h, hall]
  · rw [trimStart_append_of_ne_nil h, trimEnd_append_of_blank ha]

/-- A text that starts with no blank and ends with a trimmed text is trimmed. -/
theorem trim_append_of_trim_eq_self {front s : String} {c : Char} {cs : List Char}
    (hf : front.toList = c :: cs) (hc : isBlank c = false) (hs : trim s = s) (hne : s ≠ "") :
    trim (front ++ s) = front ++ s := by
  have hl : trimEnd (trimStart s.toList) = s.toList := by
    have h := congrArg String.toList hs
    rwa [trim, String.toList_ofList] at h
  have he : trimEnd s.toList = s.toList := by
    rw [← hl, trimEnd_trimEnd]
  have hfs : (front ++ s).toList = c :: (cs ++ s.toList) := by
    rw [String.toList_append, hf, List.cons_append]
  have hcs : trimEnd (cs ++ s.toList) = cs ++ s.toList := by
    rcases trimEnd_append cs s.toList with h | h
    · rw [he] at h
      exact absurd (String.toList_eq_nil_iff.mp h) hne
    · rw [h, he]
  rw [trim, hfs, trimStart_cons_of_not_blank _ hc, trimEnd_cons_of_not_blank _ hc, hcs, ← hfs,
    String.ofList_toList]

end Text
end FaultCodec
