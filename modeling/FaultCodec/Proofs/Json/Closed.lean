import FaultCodec.Proofs.Json.Record
import FaultCodec.Proofs.Json.Skip

/-!
# Values that show their own end

A closed reader takes the same bytes whatever follows them: the value shows its own end. Strings,
names and records are closed, records even where they hold numbers among members that they do not
know. No proper part of the front of a text is then read in place of the whole text.
-/

namespace FaultCodec
namespace Json

variable {α β σ : Type}

/-- Whatever follows a value that has been read leaves it as it is. -/
def Closed (read : Reader α) : Prop :=
  ∀ s a rest, read s = .ok (a, rest) → ∀ t, read (s ++ t) = .ok (a, rest ++ t)

/-- The same, as long as a byte is left behind the value. -/
def Bounded (read : Reader α) : Prop :=
  ∀ s a b rest, read s = .ok (a, b :: rest) → ∀ t, read (s ++ t) = .ok (a, b :: (rest ++ t))

theorem Closed.bounded {read : Reader α} (h : Closed read) : Bounded read :=
  fun _ _ _ _ hs t => h _ _ _ hs t

theorem Closed.into {read : Reader α} (h : Closed read) (put : α → β) :
    Closed (into read put) := by
  intro s a rest hs t
  obtain ⟨⟨x, more⟩, hx, hp⟩ := bind_eq_ok.mp hs
  cases hp
  exact bind_eq_ok.mpr ⟨_, h _ _ _ hx t, rfl⟩

theorem Bounded.bind {read : Reader α} {next : α → Reader β} (h : Bounded read)
    (hn : ∀ a, Bounded (next a)) (hnil : ∀ a x b rest, next a [] ≠ .ok (x, b :: rest)) :
    Bounded fun s => read s >>= fun x => next x.1 x.2 := by
  intro s y b rest hs t
  obtain ⟨⟨x, more⟩, hx, hy⟩ := bind_eq_ok.mp hs
  cases more with
  | nil => exact absurd hy (hnil x y b rest)
  | cons c more => exact bind_eq_ok.mpr ⟨_, h _ _ _ _ hx t, hn x _ _ _ _ hy t⟩

theorem refuse_ne_ok (expected : String) (s : List UInt8) (x : α) :
    refuse expected s ≠ .ok x := by
  intro h
  obtain ⟨_, _, hx⟩ := bind_eq_ok.mp h
  cases hx

theorem closed_readText : Closed readText := by
  intro s a rest h t
  unfold readText at h ⊢
  split at h
  · next more hs =>
    rw [skipSpace_append hs t]
    exact readString_append h t
  · cases h
  · exact absurd h (refuse_ne_ok _ _ _)

theorem closed_readNamed (choices : List (String × α)) : Closed (readNamed choices) := by
  intro s a rest h t
  obtain ⟨⟨name, more⟩, hn, hc⟩ := bind_eq_ok.mp h
  refine bind_eq_ok.mpr ⟨_, readString_append hn t, ?_⟩
  dsimp only at hc ⊢
  split at hc
  · cases hc
    rfl
  · cases hc

theorem readNull_append {s rest : List UInt8} (h : readNull s = .ok rest) (t : List UInt8) :
    readNull (s ++ t) = .ok (rest ++ t) := by
  unfold readNull at h ⊢
  split at h
  · next more hs =>
    rw [skipSpace_append hs t]
    exact expectIdent_append h t
  · cases h
  · exact absurd h (refuse_ne_ok _ _ _)

theorem closed_readOnlyMember (choices : List (String × α)) : Closed (readOnlyMember choices) := by
  intro s a rest h t
  obtain ⟨⟨x, s₁⟩, hx, h⟩ := bind_eq_ok.mp h
  obtain ⟨s₂, hc, h⟩ := bind_eq_ok.mp h
  obtain ⟨s₃, hn, h⟩ := bind_eq_ok.mp h
  refine bind_eq_ok.mpr ⟨_, closed_readNamed choices _ _ _ hx t, ?_⟩
  refine bind_eq_ok.mpr ⟨_, expectColon_append hc t, ?_⟩
  refine bind_eq_ok.mpr ⟨_, readNull_append hn t, ?_⟩
  split at h
  · next more hs =>
    cases h
    rw [skipSpace_append hs t]
    rfl
  · cases h
  · cases h

theorem closed_readWrapped (choices : List (String × α)) : Closed (readWrapped choices) := by
  intro s a rest h t
  unfold readWrapped at h ⊢
  split at h
  · next more hs =>
    rw [skipSpace_append hs t]
    exact closed_readOnlyMember choices _ _ _ h t
  · cases h
  · cases h
  · cases h

theorem closed_readChoice (choices : List (String × α)) : Closed (readChoice choices) := by
  intro s a rest h t
  unfold readChoice at h ⊢
  split at h
  · next more hs =>
    rw [skipSpace_append hs t]
    exact closed_readNamed choices _ _ _ h t
  · next more hs =>
    rw [skipSpace_append hs t]
    exact closed_readWrapped choices _ _ _ h t
  · cases h
  · cases h

namespace Record

variable {r : Record σ α}

theorem passComma_append {close : UInt8} {s rest : List UInt8} (h : passComma close s = .ok rest)
    (t : List UInt8) : passComma close (s ++ t) = .ok (rest ++ t) := by
  unfold passComma at h ⊢
  cases hs : skipSpace s with
  | nil =>
    rw [hs] at h
    cases h
  | cons c more =>
    rw [hs] at h
    rw [skipSpace_append hs t]
    dsimp only at h ⊢
    split_ifs at h ⊢
    · cases h
    · cases h
      rfl

theorem bounded_readMember (hf : ∀ f ∈ r.fields, ∀ d, Bounded (f.read d)) (draft : σ)
    (name : String) : Bounded (r.readMember draft name) := by
  intro s d b rest h t
  unfold readMember at h ⊢
  split at h
  · obtain ⟨value, hc, h⟩ := bind_eq_ok.mp h
    obtain ⟨more, hv, hd⟩ := bind_eq_ok.mp h
    cases hd
    exact bind_eq_ok.mpr ⟨_, expectColon_append hc t,
      bind_eq_ok.mpr ⟨_, skipValue_append hv t, rfl⟩⟩
  · next field hfind =>
    split_ifs at h ⊢
    · cases h
    · obtain ⟨value, hc, h⟩ := bind_eq_ok.mp h
      exact bind_eq_ok.mpr ⟨_, expectColon_append hc t,
        hf field (List.mem_of_find?_eq_some hfind) draft _ _ _ _ h t⟩

/-- A greater bound on the number of members changes nothing either. -/
theorem readMembers_append (hf : ∀ f ∈ r.fields, ∀ d, Bounded (f.read d)) {bound bound' : Nat}
    (hb : bound ≤ bound') {draft d : σ} {s rest : List UInt8}
    (h : r.readMembers bound draft s = .ok (d, rest)) (t : List UInt8) :
    r.readMembers bound' draft (s ++ t) = .ok (d, rest ++ t) := by
  induction bound generalizing bound' draft s with
  | zero => cases h
  | succ bound ih =>
    obtain ⟨bound', rfl⟩ := Nat.exists_eq_succ_of_ne_zero (Nat.ne_zero_of_lt hb)
    have hb := Nat.le_of_succ_le_succ hb
    cases s with
    | nil => cases h
    | cons c s =>
      by_cases hc : c = Byte.quote
      · subst hc
        obtain ⟨⟨name, s₁⟩, hn, h⟩ := bind_eq_ok.mp h
        obtain ⟨⟨middle, s₂⟩, hm, h⟩ := bind_eq_ok.mp h
        refine bind_eq_ok.mpr ⟨_, readString_append hn t, ?_⟩
        dsimp only at h
        -- a field that ends in a number needs the byte behind it, and an object never ends there
        cases s₂ with
        | nil => cases h
        | cons b s₂ =>
          refine bind_eq_ok.mpr ⟨_, bounded_readMember hf draft name _ _ _ _ hm t, ?_⟩
          rw [← List.cons_append]
          split at h
          · next more hs =>
            cases h
            dsimp only
            rw [skipSpace_append hs t]
            rfl
          · next more hs =>
            obtain ⟨s₃, hp, h⟩ := bind_eq_ok.mp h
            dsimp only
            rw [skipSpace_append hs t]
            exact bind_eq_ok.mpr ⟨_, passComma_append hp t, ih hb h⟩
          · cases h
          · cases h
      · rw [readMembers] at h
        · cases h
        · intro more he
          cases he
          exact hc rfl

theorem closed_readObject (hf : ∀ f ∈ r.fields, ∀ d, Bounded (f.read d)) :
    Closed r.readObject := by
  intro s d rest h t
  unfold readObject at h ⊢
  split at h
  · next more hs =>
    cases h
    rw [skipSpace_append hs t]
    rfl
  · cases h
  · next hc hn =>
    cases hs : skipSpace s with
    | nil => exact absurd hs hn
    | cons c more =>
      rw [hs] at h
      rw [skipSpace_append hs t]
      split
      · next he =>
        cases he
        exact absurd hs (hc more)
      · next he => cases he
      · apply readMembers_append hf _ h
        simp

theorem readElements_nil_ne_ok (fields : List (Field σ)) (first : Bool) (draft d : σ) (b : UInt8)
    (rest : List UInt8) : readElements fields first draft [] ≠ .ok (d, b :: rest) := by
  intro h
  cases fields with
  | nil => cases h
  | cons field fields => cases h

theorem bounded_readElements {fields : List (Field σ)}
    (hf : ∀ f ∈ fields, ∀ d, Bounded (f.read d)) (first : Bool) (draft : σ) :
    Bounded (readElements fields first draft) := by
  induction fields generalizing first draft with
  | nil =>
    intro s d b rest h t
    cases h
    rfl
  | cons field fields ih =>
    have ih := ih fun f hm => hf f (List.mem_cons_of_mem field hm)
    have hnext : Bounded fun s =>
        field.read draft s >>= fun x => readElements fields false x.1 x.2 :=
      (hf field List.mem_cons_self draft).bind (ih false)
        (readElements_nil_ne_ok fields false)
    intro s d b rest h t
    rw [readElements] at h ⊢
    split at h
    · next more hs =>
      cases h
      rw [skipSpace_append hs t]
      rfl
    · cases h
    · next hc hn =>
      cases hs : skipSpace s with
      | nil => exact absurd hs hn
      | cons c more =>
        rw [hs] at h
        rw [skipSpace_append hs t]
        split
        · next he =>
          cases he
          exact absurd hs (hc more)
        · next he => cases he
        · split_ifs at h ⊢ with hfirst
          · exact hnext _ _ _ _ h t
          · split at h
            · next he =>
              cases he
              obtain ⟨tail, hp, h⟩ := bind_eq_ok.mp h
              exact bind_eq_ok.mpr ⟨_, passComma_append hp t, hnext _ _ _ _ h t⟩
            · cases h

theorem endList_append {s rest : List UInt8} (h : endList s = .ok rest) (t : List UInt8) :
    endList (s ++ t) = .ok (rest ++ t) := by
  unfold endList at h ⊢
  split at h
  · next more hs =>
    cases h
    rw [skipSpace_append hs t]
    rfl
  · split at h <;> cases h
  · cases h
  · cases h

theorem endList_nil_ne_ok (rest : List UInt8) : endList [] ≠ .ok rest := by
  intro h
  cases h

theorem closed_read (hf : ∀ f ∈ r.fields, ∀ d, Bounded (f.read d)) : Closed r.read := by
  intro s a rest h t
  unfold Record.read at h ⊢
  split at h
  · next more hs =>
    rw [skipSpace_append hs t]
    obtain ⟨⟨d, s₁⟩, ho, h⟩ := bind_eq_ok.mp h
    refine bind_eq_ok.mpr ⟨_, closed_readObject hf _ _ _ ho t, ?_⟩
    dsimp only at h ⊢
    split at h
    · cases h
      rfl
    · cases h
  · next more hs =>
    rw [skipSpace_append hs t]
    obtain ⟨⟨d, s₁⟩, he, h⟩ := bind_eq_ok.mp h
    obtain ⟨s₂, hl, hd⟩ := bind_eq_ok.mp h
    cases s₁ with
    | nil => exact absurd hl (endList_nil_ne_ok s₂)
    | cons c s₁ =>
      refine bind_eq_ok.mpr ⟨_, bounded_readElements hf true r.blank _ _ _ _ he t, ?_⟩
      refine bind_eq_ok.mpr ⟨_, endList_append hl t, ?_⟩
      split at hd
      · cases hd
        rfl
      · cases hd
  · cases h
  · exact absurd h (refuse_ne_ok _ _ _)

end Record

/-- What a closed reader reads as a whole it reads from no proper part of the front. -/
theorem Closed.parse_take_ne_ok {read : Reader α} {text : List UInt8} {a : α} (h : Closed read)
    (hr : Reads read text a) {n : Nat} (hn : n < text.length) (x : α) :
    parse read (text.take n) ≠ .ok x := by
  intro hp
  obtain ⟨⟨y, rest⟩, hy, _⟩ := bind_eq_ok.mp hp
  have hw := h _ _ _ hy (text.drop n)
  have ht := hr []
  rw [List.take_append_drop] at hw
  rw [List.append_nil, hw] at ht
  have hd : rest ++ text.drop n = [] := (Prod.mk.inj (Except.ok.inj ht)).2
  have hl := congrArg List.length (List.append_eq_nil_iff.mp hd).2
  rw [List.length_drop] at hl
  simp only [List.length_nil] at hl
  omega

end Json
end FaultCodec
