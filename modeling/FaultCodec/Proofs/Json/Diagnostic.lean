import FaultCodec.Json.Number
import FaultCodec.Proofs.Log.Event
import FaultCodec.Text.Quoted
import Mathlib.Tactic.SplitIfs

/-!
# Lines of diagnostics

A diagnostic takes one line: numbers are shown by their digits and texts that were found in place of
a value are shown quoted. A name that is none of the known ones is the exception, since it is shown
as it is: every line feed in it starts another line.
-/

namespace FaultCodec

open Log (IsLine isLine_append lineFeeds lineFeeds_append lineFeeds_eq_zero_iff)

theorem isLine_ofList {cs : List Char} : IsLine (String.ofList cs) ↔ '\n' ∉ cs := by
  rw [IsLine, String.toList_ofList]

/-! ## Numbers -/

theorem lineFeed_not_mem_toDigits {base : Nat} (hb : 1 < base) (n : Nat) :
    '\n' ∉ Nat.toDigits base n := by
  induction n using Nat.strongRecOn with
  | _ n ih =>
    rw [Nat.toDigits_eq_if hb]
    split_ifs with hn
    · simp
    · simpa using ih (n / base) (Nat.div_lt_self (by omega) hb)

namespace Decimal

theorem isLine_nat (n : Nat) : IsLine (toString n) :=
  isLine_ofList.mpr (lineFeed_not_mem_toDigits (by decide) n)

theorem isLine_int (n : Int) : IsLine (toString n) := by
  cases n with
  | ofNat n => exact isLine_nat n
  | negSucc n => exact (isLine_append _ _).mpr ⟨by decide, isLine_nat (n + 1)⟩

namespace Layout

theorem lineFeed_not_mem_zeros (n : Nat) : '\n' ∉ zeros n := by
  intro h
  exact absurd (List.eq_of_mem_replicate h) (by decide)

theorem lineFeed_not_mem_stripZeros {ds : List Char} (h : '\n' ∉ ds) : '\n' ∉ stripZeros ds := by
  intro hm
  have hd := (List.dropWhile_sublist _).subset (List.mem_reverse.mp hm)
  exact h (List.mem_reverse.mp hd)

variable {l : Layout}

theorem isLine_exponentText (hl : IsLine l.positiveSign) (e : Int) : IsLine (l.exponentText e) := by
  unfold exponentText
  split_ifs
  · exact (isLine_append _ _).mpr ⟨(isLine_append _ _).mpr ⟨by decide, hl⟩, isLine_int e⟩
  · exact (isLine_append _ _).mpr ⟨by decide, isLine_int e⟩

theorem isLine_write (hl : IsLine l.positiveSign) (f : Figure) : IsLine (l.write f) := by
  have hds : '\n' ∉ stripZeros (Nat.toDigits 10 f.digits) :=
    lineFeed_not_mem_stripZeros (lineFeed_not_mem_toDigits (by decide) f.digits)
  unfold write
  dsimp only
  generalize stripZeros (Nat.toDigits 10 f.digits) = ds at hds ⊢
  have htake : ∀ n, '\n' ∉ ds.take n := fun n h => hds (List.mem_of_mem_take h)
  have hdrop : ∀ n, '\n' ∉ ds.drop n := fun n h => hds (List.mem_of_mem_drop h)
  have hpoint : IsLine "." := by decide
  have hzero : IsLine "0." := by decide
  have hwhole : IsLine ".0" := by decide
  have hempty : IsLine "" := by decide
  split_ifs <;>
    simp only [isLine_append, isLine_ofList, List.mem_append, not_or, hds, htake, hdrop, hpoint,
      hzero, hwhole, hempty, lineFeed_not_mem_zeros, isLine_exponentText hl, not_false_eq_true,
      and_self]

theorem isLine_text (hl : IsLine l.positiveSign) (negative : Bool) (x : Double) :
    IsLine (l.text negative x) := by
  refine (isLine_append _ _).mpr ⟨?_, ?_⟩
  · cases negative <;> decide
  · split_ifs
    · decide
    · exact isLine_write hl x.shortest

end Layout
end Decimal

/-! ## Texts -/

namespace Text

theorem Quoted.lineFeed_not_mem_encodeChar (c : Char) : '\n' ∉ encodeChar c := by
  unfold encodeChar
  split_ifs with h₁ h₂ h₃ h₄ h₅ h₆ h₇
  · decide
  · decide
  · decide
  · decide
  · decide
  · decide
  · simp [hexDigits, lineFeed_not_mem_toDigits]
  · simpa using Ne.symm h₄

theorem isLine_quote (s : String) : IsLine (quote s) := by
  have he : '\n' ∉ Quoted.encode s.toList := by
    intro h
    obtain ⟨c, _, hc⟩ := List.mem_flatMap.mp h
    exact Quoted.lineFeed_not_mem_encodeChar c hc
  exact (isLine_append _ _).mpr
    ⟨(isLine_append _ _).mpr ⟨by decide, isLine_ofList.mpr he⟩, by decide⟩

end Text

/-! ## Problems -/

theorem Found.isLine_describe {what : Found} (h : ∀ text, what = .float text → IsLine text) :
    IsLine what.describe := by
  cases what with
  | null => decide
  | boolean b => cases b <;> decide
  | integer n =>
    exact (isLine_append _ _).mpr
      ⟨(isLine_append _ _).mpr ⟨by decide, Decimal.isLine_int n⟩, by decide⟩
  | float text =>
    exact (isLine_append _ _).mpr ⟨(isLine_append _ _).mpr ⟨by decide, h text rfl⟩, by decide⟩
  | string s => exact (isLine_append _ _).mpr ⟨by decide, Text.isLine_quote s⟩
  | sequence => decide
  | map => decide

namespace Mismatch

theorem isLine_ticked {name : String} : IsLine (ticked name) ↔ IsLine name := by
  have ht : IsLine "`" := by decide
  simp only [ticked, isLine_append, ht, true_and, and_true]

theorem isLine_joinWith {sep : String} (hsep : IsLine sep) :
    ∀ {ss : List String}, (∀ s ∈ ss, IsLine s) → IsLine (Text.joinWith sep ss)
  | [], _ => show IsLine "" by decide
  | [s], h => h s List.mem_cons_self
  | s :: t :: rest, h => by
    rw [Text.joinWith_cons_cons, isLine_append, isLine_append]
    exact ⟨⟨h s List.mem_cons_self, hsep⟩,
      isLine_joinWith hsep fun u hu => h u (List.mem_cons_of_mem s hu)⟩

theorem isLine_choiceList {choices : List String} (h : ∀ c ∈ choices, IsLine c) :
    IsLine (choiceList choices) := by
  have hs : IsLine (Text.joinWith ", " (choices.map ticked)) := by
    apply isLine_joinWith (by decide)
    intro t ht
    obtain ⟨c, hc, rfl⟩ := List.mem_map.mp ht
    exact isLine_ticked.mpr (h c hc)
  have hone : IsLine "expected " := by decide
  have hmany : IsLine "expected one of " := by decide
  have hor : IsLine " or " := by decide
  fun_cases choiceList choices with
  | case1 => decide
  | case2 a => exact (isLine_append _ _).mpr ⟨hone, isLine_ticked.mpr (h a (by simp))⟩
  | case3 a b =>
    simp only [isLine_append, isLine_ticked]
    exact ⟨⟨⟨hone, h a (by simp)⟩, hor⟩, h b (by simp)⟩
  | case4 => exact (isLine_append _ _).mpr ⟨hmany, hs⟩

theorem lineFeeds_unknownChoice (name : String) {choices : List String}
    (h : ∀ c ∈ choices, IsLine c) :
    lineFeeds (message (.unknownChoice name choices)) = lineFeeds name := by
  have hu : lineFeeds "unknown variant " = 0 := by decide
  have ht : lineFeeds "`" = 0 := by decide
  have hc : lineFeeds ", " = 0 := by decide
  change lineFeeds ("unknown variant " ++ ("`" ++ name ++ "`") ++ ", " ++ choiceList choices) = _
  simp only [lineFeeds_append, hu, ht, hc, lineFeeds_eq_zero_iff.mpr (isLine_choiceList h),
    Nat.zero_add, Nat.add_zero]

theorem isLine_wrongType {what : Found} {expected : String} (hw : IsLine what.describe)
    (he : IsLine expected) : IsLine (message (.wrongType what expected)) := by
  have ht : IsLine "invalid type: " := by decide
  have hc : IsLine ", expected " := by decide
  change IsLine ("invalid type: " ++ what.describe ++ ", expected " ++ expected)
  simp only [isLine_append]
  exact ⟨⟨⟨ht, hw⟩, hc⟩, he⟩

theorem isLine_wrongLength {expected : String} (he : IsLine expected) (length : Nat) :
    IsLine (message (.wrongLength length expected)) := by
  have ht : IsLine "invalid length " := by decide
  have hc : IsLine ", expected " := by decide
  change IsLine ("invalid length " ++ toString length ++ ", expected " ++ expected)
  simp only [isLine_append]
  exact ⟨⟨⟨ht, Decimal.isLine_nat length⟩, hc⟩, he⟩

theorem isLine_missingMember {name : String} (h : IsLine name) :
    IsLine (message (.missingMember name)) :=
  (isLine_append _ _).mpr ⟨by decide, isLine_ticked.mpr h⟩

theorem isLine_repeatedMember {name : String} (h : IsLine name) :
    IsLine (message (.repeatedMember name)) :=
  (isLine_append _ _).mpr ⟨by decide, isLine_ticked.mpr h⟩

end Mismatch

namespace Json

theorem Number.isLine_describe (n : Number) : IsLine n.found.describe := by
  apply Found.isLine_describe
  intro text h
  cases n with
  | natural n => cases h
  | negative n => cases h
  | float below x =>
    cases h
    exact Decimal.Layout.isLine_text (by decide) below x

/-- Problems of the syntax have fixed texts. -/
theorem Problem.isLine_message {p : Problem} (h : ∀ m, p ≠ .mismatch m) : IsLine p.message := by
  cases p with
  | mismatch m => exact absurd rfl (h m)
  | _ => decide

/-- The place of an error adds no line. -/
theorem Error.lineFeeds_message (input : List UInt8) (e : Error) :
    lineFeeds (e.message input) = lineFeeds e.problem.message := by
  have hl : lineFeeds " at line " = 0 := by decide
  have hc : lineFeeds " column " = 0 := by decide
  have hn : ∀ n : Nat, lineFeeds (toString n) = 0 :=
    fun n => lineFeeds_eq_zero_iff.mpr (Decimal.isLine_nat n)
  simp only [message, lineFeeds_append, hl, hc, hn, Nat.add_zero]

end Json
end FaultCodec
