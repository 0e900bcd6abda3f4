import FaultCodec.Json.Skip
import FaultCodec.Proofs.Json.Text

/-!
# Stepping over a value looks no further than its end

Whatever is stepped over is stepped over in the same way when more bytes follow. Only a number can
go on in what follows, so the statements ask for a byte that is left behind it.
-/

namespace FaultCodec
namespace Json

variable {b : UInt8} {s rest : List UInt8}

theorem dropWhile_append_of_eq_cons {p : UInt8 → Bool} (h : s.dropWhile p = b :: rest)
    (t : List UInt8) : (s ++ t).dropWhile p = b :: (rest ++ t) := by
  induction s with
  | nil => cases h
  | cons c s ih =>
    rw [List.cons_append]
    by_cases hc : p c = true
    · rw [List.dropWhile_cons_of_pos hc] at h ⊢
      exact ih h
    · rw [List.dropWhile_cons_of_neg hc] at h ⊢
      cases h
      rfl

theorem skipSpace_append (h : skipSpace s = b :: rest) (t : List UInt8) :
    skipSpace (s ++ t) = b :: (rest ++ t) :=
  dropWhile_append_of_eq_cons h t

theorem gatherString_append {state : StringState} {gathered x : List UInt8}
    (h : gatherString state gathered s = .ok (x, rest)) (t : List UInt8) :
    gatherString state gathered (s ++ t) = .ok (x, rest ++ t) := by
  induction s generalizing state gathered with
  | nil => cases h
  | cons c s ih =>
    rw [List.cons_append]
    simp only [gatherString] at h ⊢
    split_ifs at h ⊢ with hq
    · cases h
      rfl
    · split at h
      · cases h
      · exact ih h

theorem readString_append {x : String} (h : readString s = .ok (x, rest)) (t : List UInt8) :
    readString (s ++ t) = .ok (x, rest ++ t) := by
  obtain ⟨⟨bytes, more⟩, hg, hx⟩ := bind_eq_ok.mp h
  refine bind_eq_ok.mpr ⟨_, gatherString_append hg t, ?_⟩
  cases hd : Text.Utf8.text? bytes with
  | none => simp [hd] at hx
  | some text =>
    simp only [hd, Except.ok.injEq, Prod.mk.injEq] at hx ⊢
    exact ⟨hx.1, by rw [hx.2]⟩

theorem skipString_append {state : SkipState} (h : skipString state s = .ok rest)
    (t : List UInt8) : skipString state (s ++ t) = .ok (rest ++ t) := by
  induction s generalizing state with
  | nil => cases h
  | cons c s ih =>
    rw [List.cons_append]
    cases state with
    | plain =>
      simp only [skipString] at h ⊢
      split_ifs at h ⊢
      · cases h
        rfl
      · exact ih h
      · cases h
      · exact ih h
    | escape =>
      simp only [skipString] at h ⊢
      split_ifs at h ⊢
      · exact ih h
      · exact ih h
      · cases h
    | hex count valid =>
      simp only [skipString] at h ⊢
      split_ifs at h ⊢
      · exact ih h
      · exact ih h
      · cases h

theorem expectIdent_append {word : List UInt8} (h : expectIdent word s = .ok rest)
    (t : List UInt8) : expectIdent word (s ++ t) = .ok (rest ++ t) := by
  induction word generalizing s with
  | nil =>
    cases h
    rfl
  | cons w word ih =>
    cases s with
    | nil => cases h
    | cons c s =>
      rw [List.cons_append]
      simp only [expectIdent] at h ⊢
      split_ifs at h ⊢
      · exact ih h
      · cases h

theorem expectColon_append (h : expectColon s = .ok rest) (t : List UInt8) :
    expectColon (s ++ t) = .ok (rest ++ t) := by
  unfold expectColon at h ⊢
  split at h
  · next more hs =>
    cases h
    rw [skipSpace_append hs t]
    rfl
  · cases h
  · cases h

namespace Number

theorem startsWithDigit_append (h : s ≠ []) (t : List UInt8) :
    startsWithDigit (s ++ t) = startsWithDigit s := by
  cases s with
  | nil => exact absurd rfl h
  | cons c s => rfl

/-- What is left behind a sign, if there is one. -/
def passSign : List UInt8 → List UInt8
  | Byte.plus :: more => more
  | Byte.minus :: more => more
  | more => more

/-- Steps over one digit or more. -/
def skipRun : List UInt8 → Except Error (List UInt8)
  | [] => failAt .invalidNumber []
  | c :: more =>
    if Byte.isDigit c then .ok (more.dropWhile Byte.isDigit) else failAt .invalidNumber more

theorem skipExponent_eq (s : List UInt8) : skipExponent s = skipRun (passSign s) := rfl

theorem passSign_append (h : s ≠ []) (t : List UInt8) :
    passSign (s ++ t) = passSign s ++ t := by
  fun_cases passSign s with
  | case1 more => rfl
  | case2 more => rfl
  | case3 _ hp hm =>
    cases s with
    | nil => exact absurd rfl h
    | cons c s =>
      rw [List.cons_append, passSign]
      · intro more he
        cases he
        exact hp s rfl
      · intro more he
        cases he
        exact hm s rfl

theorem skipRun_append (h : skipRun s = .ok (b :: rest)) (t : List UInt8) :
    skipRun (s ++ t) = .ok (b :: (rest ++ t)) := by
  cases s with
  | nil => cases h
  | cons c s =>
    rw [List.cons_append]
    simp only [skipRun] at h ⊢
    split_ifs at h ⊢
    · rw [dropWhile_append_of_eq_cons (Except.ok.inj h) t]
    · cases h

theorem skipExponent_append (h : skipExponent s = .ok (b :: rest)) (t : List UInt8) :
    skipExponent (s ++ t) = .ok (b :: (rest ++ t)) := by
  cases s with
  | nil => cases h
  | cons c s =>
    rw [skipExponent_eq, passSign_append (by simp)]
    exact skipRun_append h t

theorem skipEnd_append (h : skipEnd s = .ok (b :: rest)) (t : List UInt8) :
    skipEnd (s ++ t) = .ok (b :: (rest ++ t)) := by
  fun_cases skipEnd s with
  | case1 more => exact skipExponent_append h t
  | case2 more => exact skipExponent_append h t
  | case3 _ he hE =>
    rw [skipEnd] at h
    · cases h
      rw [List.cons_append, skipEnd]
      · intro more hc
        cases hc
        exact he rest rfl
      · intro more hc
        cases hc
        exact hE rest rfl
    · exact he
    · exact hE

theorem dropWhile_digits_append (skip : List UInt8 → Except Error (List UInt8))
    (hnil : skip [] = .ok [])
    (hskip : ∀ s, skip s = .ok (b :: rest) → ∀ t, skip (s ++ t) = .ok (b :: (rest ++ t)))
    (h : skip (s.dropWhile Byte.isDigit) = .ok (b :: rest)) (t : List UInt8) :
    skip ((s ++ t).dropWhile Byte.isDigit) = .ok (b :: (rest ++ t)) := by
  cases hd : s.dropWhile Byte.isDigit with
  | nil =>
    rw [hd, hnil] at h
    cases h
  | cons c more =>
    rw [hd] at h
    rw [dropWhile_append_of_eq_cons hd]
    exact hskip _ h t

theorem skipTail_append (h : skipTail s = .ok (b :: rest)) (t : List UInt8) :
    skipTail (s ++ t) = .ok (b :: (rest ++ t)) := by
  fun_cases skipTail s with
  | case1 more hs =>
    have hne : more ≠ [] := by
      rintro rfl
      cases hs
    rw [skipTail, if_pos hs] at h
    rw [List.cons_append, skipTail, startsWithDigit_append hne, if_pos hs]
    exact dropWhile_digits_append skipEnd rfl (fun _ => skipEnd_append) h t
  | case2 more hs =>
    rw [skipTail, if_neg hs] at h
    cases h
  | case3 _ hp =>
    rw [skipTail] at h
    · cases s with
      | nil => cases h
      | cons c s =>
        rw [List.cons_append, skipTail]
        · exact skipEnd_append h t
        · intro more hc
          cases hc
          exact hp s rfl
    · exact hp

theorem skipDigits_append (h : skipDigits s = .ok (b :: rest)) (t : List UInt8) :
    skipDigits (s ++ t) = .ok (b :: (rest ++ t)) := by
  fun_cases skipDigits s with
  | case1 => cases h
  | case2 more hs =>
    rw [skipDigits, if_pos hs] at h
    cases h
  | case3 more hs =>
    rw [skipDigits, if_neg hs] at h
    have hne : more ≠ [] := by
      rintro rfl
      cases h
    rw [List.cons_append, skipDigits, startsWithDigit_append hne, if_neg hs]
    exact skipTail_append h t
  | case4 c more hz hd =>
    rw [skipDigits, if_pos hd] at h
    · rw [List.cons_append, skipDigits, if_pos hd]
      · exact dropWhile_digits_append skipTail rfl (fun _ => skipTail_append) h t
      · exact hz
    · exact hz
  | case5 c more hz hd =>
    rw [skipDigits, if_neg hd] at h
    · cases h
    · exact hz

end Number

theorem skipScalar_append (h : skipScalar s = .ok (b :: rest)) (t : List UInt8) :
    skipScalar (s ++ t) = .ok (b :: (rest ++ t)) := by
  fun_cases skipScalar s with
  | case1 => cases h
  | case2 more => exact expectIdent_append h t
  | case3 more => exact expectIdent_append h t
  | case4 more => exact expectIdent_append h t
  | case5 more => exact Number.skipDigits_append h t
  | case6 more => exact skipString_append h t
  | case7 c more hn ht hf hm hq hd =>
    rw [skipScalar, if_pos hd] at h
    · rw [List.cons_append, skipScalar, if_pos hd]
      · exact Number.skipDigits_append h t
      all_goals assumption
    all_goals assumption
  | case8 c more hn ht hf hm hq hd =>
    rw [skipScalar, if_neg hd] at h
    · cases h
    all_goals assumption

theorem skipName_append (h : skipName s = .ok rest) (t : List UInt8) :
    skipName (s ++ t) = .ok (rest ++ t) := by
  unfold skipName at h ⊢
  split at h
  · next inner hs =>
    obtain ⟨more, hm, hc⟩ := bind_eq_ok.mp h
    rw [skipSpace_append hs t]
    exact bind_eq_ok.mpr ⟨_, skipString_append hm t, expectColon_append hc t⟩
  · cases h
  · cases h

section Items

variable {close : UInt8} {atEnd expected : Problem}
  {items items' : List UInt8 → Except Error (List UInt8)}

theorem skipInside_append {t : List UInt8}
    (hi : ∀ s rest, items s = .ok rest → items' (s ++ t) = .ok (rest ++ t))
    (h : skipInside close atEnd items s = .ok rest) :
    skipInside close atEnd items' (s ++ t) = .ok (rest ++ t) := by
  unfold skipInside at h ⊢
  cases hs : skipSpace s with
  | nil =>
    rw [hs] at h
    cases h
  | cons c more =>
    rw [hs] at h
    rw [skipSpace_append hs t]
    dsimp only at h ⊢
    split_ifs at h ⊢
    · cases h
      rfl
    · exact hi _ _ h

theorem skipBehind_append {t : List UInt8}
    (hi : ∀ s rest, items s = .ok rest → items' (s ++ t) = .ok (rest ++ t))
    (h : skipBehind close atEnd expected items s = .ok rest) :
    skipBehind close atEnd expected items' (s ++ t) = .ok (rest ++ t) := by
  unfold skipBehind at h ⊢
  cases hs : skipSpace s with
  | nil =>
    rw [hs] at h
    cases h
  | cons c more =>
    rw [hs] at h
    rw [skipSpace_append hs t]
    dsimp only at h ⊢
    split_ifs at h ⊢
    · exact hi _ _ h
    · cases h
      rfl
    · cases h

theorem skipBehind_nil_ne_ok : skipBehind close atEnd expected items [] ≠ .ok rest := by
  intro h
  cases h

end Items

/-- What holds of a depth for every text and every longer one, at every greater depth. -/
structure SkipsAppend (depth : Nat) : Prop where
  value : ∀ {bound s b rest}, skipWithin depth s = .ok (b :: rest) → depth ≤ bound → ∀ t,
    skipWithin bound (s ++ t) = .ok (b :: (rest ++ t))
  elements : ∀ {bound s rest}, skipElements depth s = .ok rest → depth ≤ bound → ∀ t,
    skipElements bound (s ++ t) = .ok (rest ++ t)
  members : ∀ {bound s rest}, skipMembers depth s = .ok rest → depth ≤ bound → ∀ t,
    skipMembers bound (s ++ t) = .ok (rest ++ t)

theorem SkipsAppend.succ_value {depth bound : Nat} (ih : SkipsAppend depth)
    (h : skipWithin (depth + 1) s = .ok (b :: rest)) (hb : depth ≤ bound) (t : List UInt8) :
    skipWithin (bound + 1) (s ++ t) = .ok (b :: (rest ++ t)) := by
  rw [skipWithin] at h ⊢
  split at h
  · next inner hs =>
    rw [skipSpace_append hs t]
    exact skipInside_append (fun _ _ hi => ih.elements hi hb t) h
  · next inner hs =>
    rw [skipSpace_append hs t]
    exact skipInside_append (fun _ _ hi => ih.members hi hb t) h
  · next hl ho =>
    cases hs : skipSpace s with
    | nil =>
      rw [hs] at h
      cases h
    | cons c more =>
      rw [hs] at h
      rw [skipSpace_append hs t]
      split
      · next he =>
        cases he
        exact absurd hs (hl more)
      · next he =>
        cases he
        exact absurd hs (ho more)
      · exact skipScalar_append h t

theorem skipsAppend (depth : Nat) : SkipsAppend depth := by
  induction depth with
  | zero =>
    refine ⟨?_, ?_, ?_⟩
    · intro bound s b rest h
      cases h
    · intro bound s rest h
      cases h
    · intro bound s rest h
      cases h
  | succ depth ih =>
    refine ⟨?_, ?_, ?_⟩
    · intro bound s b rest h hb t
      obtain ⟨bound, rfl⟩ := Nat.exists_eq_succ_of_ne_zero (Nat.ne_zero_of_lt hb)
      exact ih.succ_value h (Nat.le_of_succ_le_succ hb) t
    · intro bound s rest h hb t
      obtain ⟨bound, rfl⟩ := Nat.exists_eq_succ_of_ne_zero (Nat.ne_zero_of_lt hb)
      have hb := Nat.le_of_succ_le_succ hb
      rw [skipElements] at h ⊢
      obtain ⟨more, hv, hr⟩ := bind_eq_ok.mp h
      -- a comma or the end of the list stands behind every element, even behind a number
      cases more with
      | nil => exact absurd hr skipBehind_nil_ne_ok
      | cons c more =>
        exact bind_eq_ok.mpr ⟨_, ih.value hv hb t,
          skipBehind_append (fun _ _ hi => ih.elements hi hb t) hr⟩
    · intro bound s rest h hb t
      obtain ⟨bound, rfl⟩ := Nat.exists_eq_succ_of_ne_zero (Nat.ne_zero_of_lt hb)
      have hb := Nat.le_of_succ_le_succ hb
      rw [skipMembers] at h ⊢
      obtain ⟨value, hn, h⟩ := bind_eq_ok.mp h
      obtain ⟨more, hv, hr⟩ := bind_eq_ok.mp h
      refine bind_eq_ok.mpr ⟨_, skipName_append hn t, ?_⟩
      cases more with
      | nil => exact absurd hr skipBehind_nil_ne_ok
      | cons c more =>
        exact bind_eq_ok.mpr ⟨_, ih.value hv hb t,
          skipBehind_append (fun _ _ hi => ih.members hi hb t) hr⟩

/-- A value in front of another byte is stepped over in the same way when more follows. -/
theorem skipValue_append (h : skipValue s = .ok (b :: rest)) (t : List UInt8) :
    skipValue (s ++ t) = .ok (b :: (rest ++ t)) := by
  apply (skipsAppend _).value h
  rw [List.length_append]
  omega

end Json
end FaultCodec
