import FaultCodec.Json.Record
import FaultCodec.Proofs.Json.Diagnostic
import FaultCodec.Proofs.Json.Literal
import FaultCodec.Proofs.Json.Skip

/-!
# Problems are traced to the bytes

A reader leaves an end of its bytes or reports a problem. The diagnostic of the problem takes one
line, unless a name was asked for: an unknown one is shown, and it stands in the bytes as a string.
Readers are put together from parts, and each step on from one part to the next keeps to what is
left of the bytes.
-/

namespace FaultCodec
namespace Json

open Log (IsLine isLine_append)

variable {α β γ σ : Type} {known : List String} {s t rest : List UInt8} {p : Problem}

/-- What may be reported about some bytes where names have to be known ones. -/
inductive Reported (known : List String) (s : List UInt8) : Problem → Prop
  | plain {p : Problem} (h : IsLine p.message)
      (hp : ∀ name choices, p ≠ .mismatch (.unknownChoice name choices)) : Reported known s p
  | unknown {name : String} (hs : HoldsString s name) (hn : name ∉ known) :
      Reported known s (.mismatch (.unknownChoice name known))

/-- The result leaves an end of the bytes, or a problem of theirs is reported. -/
inductive Traced (known : List String) (left : β → List UInt8) (s : List UInt8) :
    Except Error β → Prop
  | ok {b : β} (h : left b <:+ s) : Traced known left s (.ok b)
  | error {e : Error} (h : Reported known s e.problem) : Traced known left s (.error e)

/-- A reader is traced on all bytes. -/
def Traceable (known : List String) (read : Reader α) : Prop :=
  ∀ s, Traced known Prod.snd s (read s)

theorem Reported.of_suffix (h : Reported known t p) (hs : t <:+ s) : Reported known s p := by
  cases h with
  | plain h hp => exact .plain h hp
  | unknown ht hn => exact .unknown (ht.of_suffix hs) hn

theorem Reported.of_ne_mismatch (h : ∀ m, p ≠ .mismatch m) : Reported known s p :=
  .plain (Problem.isLine_message h) fun _ _ => h _

section Parts

variable {left : β → List UInt8} {left' : γ → List UInt8} {x : Except Error β}

theorem Traced.here {b : β} (h : left b = s) : Traced known left s (.ok b) :=
  .ok (h ▸ List.suffix_refl s)

theorem Traced.of_suffix (h : Traced known left t x) (hs : t <:+ s) : Traced known left s x := by
  cases h with
  | ok h => exact .ok (h.trans hs)
  | error h => exact .error (h.of_suffix hs)

theorem Traced.cons (h : Traced known left s x) (b : UInt8) : Traced known left (b :: s) x :=
  h.of_suffix (List.suffix_cons b s)

theorem Traced.of_skipSpace_eq (h : Traced known left t x) (hs : skipSpace s = t) :
    Traced known left s x := by
  subst hs
  exact h.of_suffix (List.dropWhile_suffix _)

/-- A next part may go back to the bytes in front of what is left. -/
theorem Traced.bind_within {f : β → Except Error γ} (h : Traced known left s x)
    (hf : ∀ b, x = .ok b → left b <:+ s → Traced known left' s (f b)) :
    Traced known left' s (x >>= f) := by
  cases h with
  | ok h => exact hf _ rfl h
  | error h => exact .error h

/-- A next part goes on with what is left. -/
theorem Traced.bind {f : β → Except Error γ} (h : Traced known left s x)
    (hf : ∀ b, x = .ok b → Traced known left' (left b) (f b)) :
    Traced known left' s (x >>= f) :=
  h.bind_within fun b hb hs => (hf b hb).of_suffix hs

theorem traced_failAt (h : ∀ m, p ≠ .mismatch m) (rest : List UInt8) :
    Traced known left s (failAt p rest) :=
  .error (.of_ne_mismatch h)

theorem traced_failOn (h : ∀ m, p ≠ .mismatch m) (rest : List UInt8) :
    Traced known left s (failOn p rest) :=
  .error (.of_ne_mismatch h)

theorem traced_mismatch {m : Mismatch} (h : IsLine m.message)
    (hm : ∀ name choices, m ≠ .unknownChoice name choices) (rest : List UInt8) :
    Traced known left s (failAt (.mismatch m) rest) :=
  .error (.plain h fun name choices he => hm name choices (Problem.mismatch.inj he))

end Parts

/-! ## Tokens -/

namespace StringState

theorem ne_mismatch_of_finishHex {high : Option Nat} {v : Nat} (h : finishHex high v = .error p) :
    ∀ m, p ≠ .mismatch m := by
  cases high with
  | none =>
    simp only [finishHex] at h
    split_ifs at h
    cases h
    simp
  | some first =>
    simp only [finishHex] at h
    split_ifs at h
    cases h
    simp

theorem ne_mismatch_of_step {state : StringState} {b : UInt8} (h : state.step b = .error p) :
    ∀ m, p ≠ .mismatch m := by
  cases state with
  | plain =>
    rw [step] at h
    split_ifs at h
    cases h
    simp
  | escape =>
    rw [step] at h
    split at h
    · cases h
    · split_ifs at h
      cases h
      simp
  | hex high count value =>
    simp only [step] at h
    split_ifs at h
    split at h
    · cases h
      simp
    · exact ne_mismatch_of_finishHex h
  | half high =>
    rw [step] at h
    split_ifs at h
    cases h
    simp
  | halfEscape high =>
    rw [step] at h
    split_ifs at h
    cases h
    simp

end StringState

theorem traced_gatherString (state : StringState) (gathered s : List UInt8) :
    Traced known Prod.snd s (gatherString state gathered s) := by
  induction s generalizing state gathered with
  | nil => exact traced_failAt (by simp) []
  | cons b s ih =>
    rw [gatherString]
    split_ifs
    · exact .ok (List.suffix_cons b s)
    · split
      · next q hs => exact traced_failAt (StringState.ne_mismatch_of_step hs) s
      · next added next hs => exact (ih next _).cons b

theorem traceable_readString : Traceable known readString := by
  intro s
  refine (traced_gatherString .plain [] s).bind fun ⟨bytes, rest⟩ _ => ?_
  dsimp only
  split
  · exact .here rfl
  · exact .error (.of_ne_mismatch (by simp))

theorem traced_skipString (state : SkipState) (s : List UInt8) :
    Traced known id s (skipString state s) := by
  induction s generalizing state with
  | nil => exact traced_failAt (by simp) []
  | cons b s ih =>
    cases state with
    | plain =>
      simp only [skipString]
      split_ifs
      · exact .ok (List.suffix_cons b s)
      · exact (ih _).cons b
      · exact traced_failAt (by simp) _
      · exact (ih _).cons b
    | escape =>
      simp only [skipString]
      split_ifs
      · exact (ih _).cons b
      · exact (ih _).cons b
      · exact traced_failAt (by simp) _
    | hex count valid =>
      simp only [skipString]
      split_ifs
      · exact (ih _).cons b
      · exact (ih _).cons b
      · exact traced_failAt (by simp) _

theorem traced_expectIdent (word s : List UInt8) : Traced known id s (expectIdent word s) := by
  fun_induction expectIdent word s with
  | case1 rest => exact .here rfl
  | case2 => exact traced_failAt (by simp) []
  | case3 word b rest ih => exact ih.cons b
  | case4 => exact traced_failAt (by simp) _

theorem traced_expectColon (s : List UInt8) : Traced known id s (expectColon s) := by
  unfold expectColon
  split
  · next rest hs => exact (Traced.ok (List.suffix_cons _ rest)).of_skipSpace_eq hs
  · exact traced_failOn (by simp) []
  · exact traced_failOn (by simp) _

/-! ## Numbers -/

namespace Number

theorem passSign_suffix (s : List UInt8) : passSign s <:+ s := by
  fun_cases passSign s with
  | case1 more => exact List.suffix_cons _ more
  | case2 more => exact List.suffix_cons _ more
  | case3 => exact List.suffix_refl s

theorem traced_skipExponent (s : List UInt8) : Traced known id s (skipExponent s) := by
  rw [skipExponent_eq]
  refine Traced.of_suffix ?_ (passSign_suffix s)
  fun_cases skipRun (passSign s) with
  | case1 => exact traced_failAt (by simp) []
  | case2 c more hd => exact .ok ((List.dropWhile_suffix _).trans (List.suffix_cons c more))
  | case3 => exact traced_failAt (by simp) _

theorem traced_skipEnd (s : List UInt8) : Traced known id s (skipEnd s) := by
  fun_cases skipEnd s with
  | case1 rest => exact (traced_skipExponent rest).cons _
  | case2 rest => exact (traced_skipExponent rest).cons _
  | case3 => exact .here rfl

theorem traced_skipTail (s : List UInt8) : Traced known id s (skipTail s) := by
  fun_cases skipTail s with
  | case1 rest => exact ((traced_skipEnd _).of_suffix (List.dropWhile_suffix _)).cons _
  | case2 rest => exact traced_failOn (by simp) rest
  | case3 => exact traced_skipEnd s

theorem traced_skipDigits (s : List UInt8) : Traced known id s (skipDigits s) := by
  fun_cases skipDigits s with
  | case1 => exact traced_failAt (by simp) []
  | case2 rest => exact traced_failOn (by simp) rest
  | case3 rest => exact (traced_skipTail rest).cons _
  | case4 b rest => exact ((traced_skipTail _).of_suffix (List.dropWhile_suffix _)).cons b
  | case5 b rest => exact traced_failAt (by simp) rest

theorem absorb_suffix (n taken : Nat) (s : List UInt8) : (absorb n taken s).2.2 <:+ s := by
  fun_induction absorb n taken s with
  | case1 => exact List.suffix_refl []
  | case2 n taken b rest h ih => exact ih.trans (List.suffix_cons b rest)
  | case3 => exact List.suffix_refl _

theorem traceable_readScaled (below : Bool) (n : Nat) (e : Int) :
    Traceable known (readScaled below n e) := by
  intro s
  unfold readScaled
  split
  · exact .here rfl
  · exact traced_failAt (by simp) s

theorem traceable_readExponentDigits (below : Bool) (n : Nat) (e : Int) (down : Bool) (k : Nat) :
    Traceable known (readExponentDigits below n e down k) := by
  intro s
  fun_induction readExponentDigits below n e down k s with
  | case1 k => exact traceable_readScaled below n _ []
  | case2 k b rest hd hk ih => exact ih.cons b
  | case3 k b rest => exact traced_failAt (by simp) rest
  | case4 k b rest => exact .ok ((List.dropWhile_suffix _).trans (List.suffix_cons b rest))
  | case5 k b rest => exact traceable_readScaled below n _ _

theorem traceable_readExponent (below : Bool) (n : Nat) (e : Int) :
    Traceable known (readExponent below n e) := by
  intro s
  fun_cases readExponent below n e s with
  | case1 => exact traced_failAt (by simp) []
  | case2 down b rest hd hs =>
    refine ((traceable_readExponentDigits below n e down _ rest).cons b).of_suffix ?_
    split at hs
    · cases hs
      exact List.suffix_cons _ _
    · cases hs
      exact List.suffix_cons _ _
    · cases hs
      exact List.suffix_refl _
  | case3 down b rest => exact traced_failAt (by simp) rest

theorem traceable_readEnd (below : Bool) (n : Nat) (e : Int) :
    Traceable known (readEnd below n e) := by
  intro s
  fun_cases readEnd below n e s with
  | case1 rest => exact (traceable_readExponent below n e rest).cons _
  | case2 rest => exact (traceable_readExponent below n e rest).cons _
  | case3 => exact traceable_readScaled below n e s

theorem traceable_readFraction (below : Bool) (n : Nat) (e : Int) :
    Traceable known (readFraction below n e) := by
  intro s
  have ha := absorb_suffix n 0 s
  unfold readFraction
  generalize absorb n 0 s = a at ha ⊢
  obtain ⟨n', taken, rest⟩ := a
  dsimp only at ha ⊢
  refine Traced.of_suffix ?_ ha
  split_ifs
  · exact (traceable_readEnd below n' _ _).of_suffix (List.dropWhile_suffix _)
  · split
    · exact traced_failAt (by simp) []
    · exact traced_failOn (by simp) _
  · exact traceable_readEnd below n' _ rest

theorem traceable_readTail (below : Bool) (n : Nat) : Traceable known (readTail below n) := by
  intro s
  fun_cases readTail below n s with
  | case1 rest => exact (traceable_readFraction below n 0 rest).cons _
  | case2 rest => exact (traceable_readExponent below n 0 rest).cons _
  | case3 rest => exact (traceable_readExponent below n 0 rest).cons _
  | case4 => exact .here rfl
  | case5 => exact .here rfl
  | case6 => exact .here rfl
  | case7 => exact traced_failAt (by simp) s

theorem traceable_readLong (below : Bool) (n : Nat) : Traceable known (readLong below n) := by
  intro s
  refine Traced.of_suffix ?_ (List.dropWhile_suffix Byte.isDigit)
  unfold readLong
  dsimp only
  split
  · next rest hs =>
    rw [hs]
    exact (traceable_readFraction below n _ rest).cons _
  · exact traceable_readEnd below n _ _

theorem traceable_readDigits (below : Bool) : Traceable known (readDigits below) := by
  intro s
  fun_cases readDigits below s with
  | case1 => exact traced_failAt (by simp) []
  | case2 rest => exact traced_failOn (by simp) rest
  | case3 rest => exact (traceable_readTail below 0 rest).cons _
  | case4 b rest hz hd n taken more ha hm =>
    have hs := absorb_suffix (Byte.digit b) 0 rest
    rw [ha] at hs
    exact ((traceable_readLong below n more).of_suffix hs).cons b
  | case5 b rest hz hd n taken more ha hm =>
    have hs := absorb_suffix (Byte.digit b) 0 rest
    rw [ha] at hs
    exact ((traceable_readTail below n more).of_suffix hs).cons b
  | case6 b rest => exact traced_failAt (by simp) rest

theorem traceable_read : Traceable known read := by
  intro s
  fun_cases read s with
  | case1 rest => exact (traceable_readDigits true rest).cons _
  | case2 => exact traceable_readDigits false s

end Number

/-! ## What is stepped over -/

theorem traced_skipScalar (s : List UInt8) : Traced known id s (skipScalar s) := by
  fun_cases skipScalar s with
  | case1 => exact traced_failOn (by simp) []
  | case2 rest => exact (traced_expectIdent _ rest).cons _
  | case3 rest => exact (traced_expectIdent _ rest).cons _
  | case4 rest => exact (traced_expectIdent _ rest).cons _
  | case5 rest => exact (Number.traced_skipDigits rest).cons _
  | case6 rest => exact (traced_skipString .plain rest).cons _
  | case7 b rest => exact Number.traced_skipDigits _
  | case8 b rest => exact traced_failOn (by simp) _

theorem traced_skipName (s : List UInt8) : Traced known id s (skipName s) := by
  unfold skipName
  split
  · next rest hs =>
    refine Traced.of_skipSpace_eq (Traced.cons ?_ _) hs
    exact (traced_skipString .plain rest).bind fun more _ => traced_expectColon more
  · exact traced_failOn (by simp) []
  · exact traced_failOn (by simp) _

section Items

variable {close : UInt8} {atEnd expected : Problem}
  {items : List UInt8 → Except Error (List UInt8)}

theorem traced_skipInside (hend : ∀ m, atEnd ≠ .mismatch m)
    (hi : ∀ s, Traced known id s (items s)) (s : List UInt8) :
    Traced known id s (skipInside close atEnd items s) := by
  unfold skipInside
  split
  · exact traced_failOn hend []
  · next b rest hs =>
    refine Traced.of_skipSpace_eq ?_ hs
    split_ifs
    · exact Traced.ok (List.suffix_cons b rest)
    · exact hi (b :: rest)

theorem traced_skipBehind (hend : ∀ m, atEnd ≠ .mismatch m) (hexp : ∀ m, expected ≠ .mismatch m)
    (hi : ∀ s, Traced known id s (items s)) (s : List UInt8) :
    Traced known id s (skipBehind close atEnd expected items s) := by
  unfold skipBehind
  split
  · exact traced_failOn hend []
  · next b rest hs =>
    refine Traced.of_skipSpace_eq ?_ hs
    split_ifs
    · exact (hi rest).cons b
    · exact Traced.ok (List.suffix_cons b rest)
    · exact traced_failOn hexp _

end Items

/-- What holds of a depth; the three of the next depth call one another at this one. -/
structure SkipsTraced (known : List String) (depth : Nat) : Prop where
  value : ∀ s, Traced known id s (skipWithin depth s)
  elements : ∀ s, Traced known id s (skipElements depth s)
  members : ∀ s, Traced known id s (skipMembers depth s)

theorem skipsTraced (depth : Nat) : SkipsTraced known depth := by
  induction depth with
  | zero =>
    refine ⟨?_, ?_, ?_⟩
    · intro s
      exact traced_failOn (by simp) s
    · intro s
      exact traced_failOn (by simp) s
    · intro s
      exact traced_failOn (by simp) s
  | succ depth ih =>
    refine ⟨?_, ?_, ?_⟩
    · intro s
      rw [skipWithin]
      refine Traced.of_skipSpace_eq ?_ rfl
      split
      · next rest hs =>
        rw [hs]
        exact (traced_skipInside (by simp) ih.elements rest).cons _
      · next rest hs =>
        rw [hs]
        exact (traced_skipInside (by simp) ih.members rest).cons _
      · exact traced_skipScalar _
    · intro s
      rw [skipElements]
      exact (ih.value s).bind fun rest _ =>
        traced_skipBehind (by simp) (by simp) ih.elements rest
    · intro s
      rw [skipMembers]
      refine (traced_skipName s).bind fun value _ => ?_
      exact (ih.value value).bind fun rest _ =>
        traced_skipBehind (by simp) (by simp) ih.members rest

theorem traced_skipValue (s : List UInt8) : Traced known id s (skipValue s) :=
  (skipsTraced _).value s

/-! ## Typed values -/

theorem traceable_found : Traceable known found := by
  intro s
  fun_cases found s with
  | case1 rest =>
    refine Traced.cons ?_ _
    exact (traced_expectIdent _ rest).bind fun _ _ => .here rfl
  | case2 rest =>
    refine Traced.cons ?_ _
    exact (traced_expectIdent _ rest).bind fun _ _ => .here rfl
  | case3 rest =>
    refine Traced.cons ?_ _
    exact (traced_expectIdent _ rest).bind fun _ _ => .here rfl
  | case4 rest =>
    refine Traced.cons ?_ _
    exact (traceable_readString rest).bind fun _ _ => .here rfl
  | case5 => exact .here rfl
  | case6 => exact .here rfl
  | case7 => exact (Number.traceable_read _).bind fun _ _ => .here rfl
  | case8 => exact (Number.traceable_read _).bind fun _ _ => .here rfl
  | case9 => exact traced_failOn (by simp) _
  | case10 => exact traced_failOn (by simp) []

theorem isLine_of_found {what : Found} (h : found s = .ok (what, rest)) : IsLine what.describe := by
  have hnumber : ∀ s, (Number.read s >>= fun x => .ok (x.1.found, x.2)) = .ok (what, rest) →
      IsLine what.describe := by
    intro s hr
    obtain ⟨x, _, hx⟩ := bind_eq_ok.mp hr
    cases hx
    exact x.1.isLine_describe
  unfold found at h
  split at h
  · obtain ⟨_, _, hx⟩ := bind_eq_ok.mp h
    cases hx
    exact Found.isLine_describe nofun
  · obtain ⟨_, _, hx⟩ := bind_eq_ok.mp h
    cases hx
    exact Found.isLine_describe nofun
  · obtain ⟨_, _, hx⟩ := bind_eq_ok.mp h
    cases hx
    exact Found.isLine_describe nofun
  · obtain ⟨_, _, hx⟩ := bind_eq_ok.mp h
    cases hx
    exact Found.isLine_describe nofun
  · cases h
    exact Found.isLine_describe nofun
  · cases h
    exact Found.isLine_describe nofun
  · exact hnumber _ h
  · split_ifs at h
    · exact hnumber _ h
    · cases h
  · cases h

theorem traced_refuse {left : β → List UInt8} {expected : String} (he : IsLine expected)
    (s : List UInt8) : Traced known left s (refuse expected s) := by
  refine (traceable_found s).bind fun ⟨what, rest⟩ h => ?_
  exact traced_mismatch (Mismatch.isLine_wrongType (isLine_of_found h) he) (by simp) rest

theorem traceable_readText : Traceable known readText := by
  intro s
  unfold readText
  refine Traced.of_skipSpace_eq ?_ rfl
  split
  · next rest hs =>
    rw [hs]
    exact (traceable_readString rest).cons _
  · exact traced_failOn (by simp) []
  · exact traced_refuse (by decide) _

theorem choose_eq_error {choices : List (String × α)} {name : String}
    (h : choose choices name = .error p) :
    p = .mismatch (.unknownChoice name (choices.map Prod.fst)) ∧ name ∉ choices.map Prod.fst := by
  unfold choose at h
  split at h
  · cases h
  · next hl =>
    cases h
    refine ⟨rfl, ?_⟩
    intro hm
    obtain ⟨c, hc, rfl⟩ := List.mem_map.mp hm
    simpa using List.lookup_eq_none_iff.mp hl c hc

/-- The name that is not known stands behind the opening quote. -/
theorem traced_readNamed (choices : List (String × α)) (s : List UInt8) :
    Traced (choices.map Prod.fst) Prod.snd (Byte.quote :: s) (readNamed choices s) := by
  -- an unknown name stands in front of what is left, so the bytes as a whole are kept
  refine ((traceable_readString s).cons _).bind_within fun ⟨name, rest⟩ hn hs => ?_
  dsimp only
  split
  · exact .ok hs
  · next hc =>
    obtain ⟨rfl, hname⟩ := choose_eq_error hc
    exact .error (.unknown (holdsString_of_readString hn) hname)

theorem traced_readNull (s : List UInt8) : Traced known id s (readNull s) := by
  unfold readNull
  refine Traced.of_skipSpace_eq ?_ rfl
  split
  · next rest hs =>
    rw [hs]
    exact (traced_expectIdent _ rest).cons _
  · exact traced_failOn (by simp) []
  · exact traced_refuse (by decide) _

section Choices

variable (choices : List (String × α))

theorem traced_readOnlyMember (s : List UInt8) :
    Traced (choices.map Prod.fst) Prod.snd (Byte.quote :: s) (readOnlyMember choices s) := by
  refine (traced_readNamed choices s).bind fun ⟨a, s₁⟩ _ => ?_
  refine (traced_expectColon s₁).bind fun s₂ _ => ?_
  refine (traced_readNull s₂).bind fun s₃ _ => ?_
  refine Traced.of_skipSpace_eq (s := s₃) ?_ rfl
  split
  · next more hs =>
    rw [hs]
    exact .ok (List.suffix_cons _ more)
  · exact traced_failAt (by simp) []
  · exact traced_failAt (by simp) _

theorem traceable_readWrapped : Traceable (choices.map Prod.fst) (readWrapped choices) := by
  intro s
  unfold readWrapped
  refine Traced.of_skipSpace_eq ?_ rfl
  split
  · next rest hs =>
    rw [hs]
    exact traced_readOnlyMember choices rest
  · exact traced_failOn (by simp) _
  · exact traced_failOn (by simp) []
  · exact traced_failOn (by simp) _

theorem traceable_readChoice : Traceable (choices.map Prod.fst) (readChoice choices) := by
  intro s
  unfold readChoice
  refine Traced.of_skipSpace_eq ?_ rfl
  split
  · next rest hs =>
    rw [hs]
    exact traced_readNamed choices rest
  · next rest hs =>
    rw [hs]
    exact (traceable_readWrapped choices rest).cons _
  · exact traced_failOn (by simp) []
  · exact traced_failOn (by simp) _

end Choices

theorem Traceable.into {read : Reader α} (h : Traceable known read) (put : α → β) :
    Traceable known (into read put) :=
  fun s => (h s).bind fun _ _ => .here rfl

/-! ## Records -/

namespace Record

/-- The fields are traced, and the names of the record and of its fields take one line. -/
structure IsTraced (known : List String) (r : Record σ α) : Prop where
  title : IsLine r.title
  name : ∀ f ∈ r.fields, IsLine f.name
  read : ∀ f ∈ r.fields, ∀ d, Traceable known (f.read d)
  finish : ∀ d name, r.finish d = .error name → IsLine name

theorem traced_passComma (close : UInt8) (s : List UInt8) :
    Traced known id s (passComma close s) := by
  unfold passComma
  split
  · exact traced_failOn (by simp) []
  · next b rest hs =>
    refine Traced.of_skipSpace_eq ?_ hs
    split_ifs
    · exact traced_failOn (by simp) _
    · exact .here rfl

variable {r : Record σ α}

theorem IsTraced.readMember (h : r.IsTraced known) (draft : σ) (name : String) :
    Traceable known (r.readMember draft name) := by
  intro s
  unfold Record.readMember
  split
  · refine (traced_expectColon s).bind fun value _ => ?_
    exact (traced_skipValue value).bind fun rest _ => .here rfl
  · next field hf =>
    have hm := List.mem_of_find?_eq_some hf
    have hn : field.name = name := by simpa using List.find?_some hf
    split_ifs
    · exact traced_mismatch (Mismatch.isLine_repeatedMember (hn ▸ h.name field hm)) (by simp) _
    · exact (traced_expectColon s).bind fun value _ => h.read field hm draft value

theorem IsTraced.readMembers (h : r.IsTraced known) (bound : Nat) (draft : σ) :
    Traceable known (r.readMembers bound draft) := by
  intro s
  induction bound generalizing draft s with
  | zero => exact traced_failOn (by simp) s
  | succ bound ih =>
    rw [Record.readMembers.eq_def]
    dsimp only
    split
    · next rest =>
      refine Traced.cons ?_ _
      refine (traceable_readString rest).bind fun ⟨name, s₁⟩ _ => ?_
      refine (h.readMember draft name s₁).bind fun ⟨draft, s₂⟩ _ => ?_
      refine Traced.of_skipSpace_eq ?_ rfl
      dsimp only
      split
      · next more hs =>
        rw [hs]
        exact .ok (List.suffix_cons _ more)
      · next more hs =>
        rw [hs]
        refine Traced.cons ?_ _
        exact (traced_passComma _ more).bind fun next _ => ih draft next
      · exact traced_failOn (by simp) []
      · exact traced_failOn (by simp) _
    · exact traced_failOn (by simp) s

theorem IsTraced.readObject (h : r.IsTraced known) : Traceable known r.readObject := by
  intro s
  unfold Record.readObject
  refine Traced.of_skipSpace_eq ?_ rfl
  split
  · next rest hs =>
    rw [hs]
    exact .ok (List.suffix_cons _ rest)
  · exact traced_failOn (by simp) []
  · exact h.readMembers _ r.blank _

theorem traceable_readElements {fields : List (Field σ)}
    (h : ∀ f ∈ fields, ∀ d, Traceable known (f.read d)) (first : Bool) (draft : σ) :
    Traceable known (readElements fields first draft) := by
  intro s
  induction fields generalizing first draft s with
  | nil => exact .here rfl
  | cons field fields ih =>
    have hnext : ∀ s, Traced known Prod.snd s
        (field.read draft s >>= fun x => readElements fields false x.1 x.2) := fun s =>
      (h field List.mem_cons_self draft s).bind fun x _ =>
        ih (fun f hm => h f (List.mem_cons_of_mem field hm)) false x.1 x.2
    rw [readElements]
    refine Traced.of_skipSpace_eq ?_ rfl
    split
    · next rest hs =>
      rw [hs]
      exact .here rfl
    · exact traced_failOn (by simp) []
    · split_ifs
      · exact hnext _
      · split
        · next more hs =>
          rw [hs]
          refine Traced.cons ?_ _
          exact (traced_passComma _ more).bind fun next _ => hnext next
        · exact traced_failOn (by simp) _

theorem traced_endList (s : List UInt8) : Traced known id s (endList s) := by
  unfold endList
  refine Traced.of_skipSpace_eq ?_ rfl
  split
  · next rest hs =>
    rw [hs]
    exact .ok (List.suffix_cons _ rest)
  · split
    · exact traced_failOn (by simp) _
    · exact traced_failOn (by simp) _
  · exact traced_failOn (by simp) []
  · exact traced_failOn (by simp) _

theorem IsTraced.isLine_listTitle (h : r.IsTraced known) : IsLine r.listTitle := by
  have hw : IsLine " with " := by decide
  have he : IsLine " elements" := by decide
  simp only [listTitle, isLine_append]
  exact ⟨⟨⟨h.title, hw⟩, Decimal.isLine_nat _⟩, he⟩

theorem IsTraced.traceable_read (h : r.IsTraced known) : Traceable known r.read := by
  intro s
  unfold Record.read
  refine Traced.of_skipSpace_eq ?_ rfl
  split
  · next rest hs =>
    rw [hs]
    refine Traced.cons ?_ _
    refine (h.readObject rest).bind fun ⟨draft, s₁⟩ _ => ?_
    dsimp only
    split
    · exact .here rfl
    · next name hf =>
      have hn := h.finish draft name hf
      exact traced_mismatch (Mismatch.isLine_missingMember hn) (by simp) s₁
  · next rest hs =>
    rw [hs]
    refine Traced.cons ?_ _
    refine (traceable_readElements h.read true r.blank rest).bind fun ⟨draft, s₁⟩ _ => ?_
    refine (traced_endList s₁).bind fun s₂ _ => ?_
    split
    · exact .here rfl
    · exact traced_mismatch (Mismatch.isLine_wrongLength h.isLine_listTitle _) (by simp) _
  · exact traced_failOn (by simp) []
  · exact traced_refuse h.title _

end Record

/-- What is reported about the bytes as a whole. -/
theorem Traceable.reported {read : Reader α} (h : Traceable known read) {e : Error}
    (he : parse read s = .error e) : Reported known s e.problem := by
  have hp : Traced known (fun _ => []) s (parse read s) := by
    refine (h s).bind fun ⟨a, rest⟩ _ => ?_
    dsimp only
    split
    · exact .ok (List.nil_suffix)
    · exact traced_failOn (by simp) _
  rw [he] at hp
  cases hp with
  | error hr => exact hr

end Json
end FaultCodec
