import FaultCodec.Proofs.Json.Decides
import Mathlib.Data.List.Nodup
import Mathlib.Data.List.Pairwise

/-!
# What records make of documents

The fields of a record are slots of its draft. A member of an object fills the slot of its name,
which has to be empty, and an unknown member leaves the draft as it is; the items of a list fill the
slots in their order. So the order of the members makes no difference: each slot holds what the only
member of its name means, and stays empty if there is none.
-/

namespace FaultCodec
namespace Json

open Document (Spells named)

variable {σ α : Type}

/-- A part of a draft that a field of a record fills: how it is got and put, and how its value is
read and what documents mean for it. -/
structure Slot (σ : Type) where
  name : String
  Value : Type
  read : Reader Value
  Means : Document → Value → Prop
  get : σ → Option Value
  put : σ → Value → σ
  decides : Decides read Means
  get_put : ∀ d b, get (put d b) = some b

namespace Slot

/-- The field that fills a slot once. -/
def field (s : Slot σ) : Field σ where
  name := s.name
  isSet := fun d => (s.get d).isSome
  read := fun d => into s.read (s.put d)

/-- The second draft is the first with the meaning of the document in the slot. -/
def Takes (s : Slot σ) (d : σ) (v : Document) (e : σ) : Prop := ∃ b, s.Means v b ∧ s.put d b = e

theorem decides_field (s : Slot σ) (d : σ) : Decides (s.field.read d) (s.Takes d) :=
  s.decides.into (s.put d)

/-- What members have done to a slot: nothing without one of its name, and otherwise the slot was
empty and holds what the only one means. -/
def Holds (s : Slot σ) (d : σ) (ms : List (String × Document)) (e : σ) : Prop :=
  (named s.name ms = [] ∧ s.get e = s.get d) ∨
    (s.get d = none ∧ ∃ v b, named s.name ms = [v] ∧ s.Means v b ∧ s.get e = some b)

/-- Filling one of the slots leaves the other as it is. -/
def Apart (s t : Slot σ) : Prop :=
  (∀ d b, t.get (s.put d b) = t.get d) ∧ ∀ d b, s.get (t.put d b) = s.get d

instance : Std.Symm (@Apart σ) where
  symm _ _ h := ⟨h.2, h.1⟩

section Holds

variable {s : Slot σ} {d e : σ} {ms : List (String × Document)}

theorem holds_nil : s.Holds d [] e ↔ s.get e = s.get d := by
  simp [Holds]

theorem holds_cons_of_ne {name : String} (v : Document) (h : name ≠ s.name) :
    s.Holds d ((name, v) :: ms) e ↔ s.Holds d ms e := by
  simp only [Holds, Document.named_cons_of_ne h]

theorem holds_cons_self {v : Document} : s.Holds d ((s.name, v) :: ms) e ↔
    s.get d = none ∧ ∃ b, s.Means v b ∧ named s.name ms = [] ∧ s.get e = some b := by
  simp only [Holds, Document.named_cons_self]
  constructor
  · rintro (⟨hn, _⟩ | ⟨hd, w, b, hn, hw, hb⟩)
    · cases hn
    · obtain ⟨rfl, hms⟩ := List.cons.inj hn
      exact ⟨hd, b, hw, hms, hb⟩
  · rintro ⟨hd, b, hv, hms, hb⟩
    exact Or.inr ⟨hd, v, b, by rw [hms], hv, hb⟩

theorem holds_put (b : s.Value) :
    s.Holds (s.put d b) ms e ↔ named s.name ms = [] ∧ s.get e = some b := by
  simp [Holds, s.get_put]

theorem holds_congr {d₁ d₂ : σ} (h : s.get d₁ = s.get d₂) : s.Holds d₁ ms e ↔ s.Holds d₂ ms e := by
  simp only [Holds, h]

theorem holds_of_empty (h : s.get d = none) : s.Holds d ms e ↔
    (named s.name ms = [] ∧ s.get e = none) ∨
      ∃ v b, named s.name ms = [v] ∧ s.Means v b ∧ s.get e = some b := by
  simp [Holds, h]

theorem Holds.of_perm {ms' : List (String × Document)} (h : s.Holds d ms e) (hp : ms.Perm ms') :
    s.Holds d ms' e := by
  have hn : (named s.name ms).Perm (named s.name ms') := hp.filterMap _
  rcases h with ⟨hms, he⟩ | ⟨hd, v, b, hms, hv, he⟩
  · rw [hms] at hn
    exact Or.inl ⟨List.nil_perm.mp hn, he⟩
  · rw [hms] at hn
    exact Or.inr ⟨hd, v, b, (List.singleton_perm.mp hn).symm, hv, he⟩

end Holds

end Slot

/-- A slot with a default ends up with what the only member of its name means, or with the default
without one. -/
theorem exists_getD_eq_iff {β : Type} (Means : Document → β → Prop) {vs : List Document}
    {default b : β} :
    (∃ o : Option β, ((vs = [] ∧ o = none) ∨ ∃ v a, vs = [v] ∧ Means v a ∧ o = some a) ∧
      o.getD default = b) ↔ (vs = [] ∧ b = default) ∨ ∃ v, vs = [v] ∧ Means v b := by
  constructor
  · rintro ⟨o, ⟨hn, rfl⟩ | ⟨v, a, hn, hv, rfl⟩, rfl⟩
    · exact Or.inl ⟨hn, rfl⟩
    · exact Or.inr ⟨v, hn, hv⟩
  · rintro (⟨hn, rfl⟩ | ⟨v, hn, hv⟩)
    · exact ⟨none, Or.inl ⟨hn, rfl⟩, rfl⟩
    · exact ⟨some b, Or.inr ⟨v, b, hn, hv, rfl⟩, rfl⟩

/-- The slots of a record: they have names of their own, do not touch each other, and make up the
draft. -/
structure Layout (r : Record σ α) where
  slots : List (Slot σ)
  fields_eq : r.fields = slots.map Slot.field
  nodup : (slots.map Slot.name).Nodup
  apart : slots.Pairwise Slot.Apart
  ext : ∀ d e, (∀ s ∈ slots, s.get d = s.get e) → d = e

namespace Layout

variable {r : Record σ α} {l : Layout r} {s : Slot σ} {d e : σ} {name : String} {v : Document}
  {ms : List (String × Document)}

/-- What a member does to a draft. -/
inductive Step (l : Layout r) : σ → String × Document → σ → Prop
  | unknown {d : σ} {name : String} {v : Document} (h : ∀ s ∈ l.slots, s.name ≠ name) :
      Step l d (name, v) d
  | known {d e : σ} {v : Document} {s : Slot σ} (hs : s ∈ l.slots) (hd : s.get d = none)
      (hv : s.Takes d v e) : Step l d (s.name, v) e

/-- What members do to a draft, one after the other. -/
inductive Run (l : Layout r) : σ → List (String × Document) → σ → Prop
  | nil {d : σ} : Run l d [] d
  | cons {d e f : σ} {m : String × Document} {ms : List (String × Document)} (head : l.Step d m e)
      (tail : Run l e ms f) : Run l d (m :: ms) f

theorem eq_of_name (l : Layout r) {t : Slot σ} (hs : s ∈ l.slots) (ht : t ∈ l.slots)
    (h : s.name = t.name) : s = t :=
  List.inj_on_of_nodup_map l.nodup hs ht h

theorem frame (l : Layout r) {t : Slot σ} (hs : s ∈ l.slots) (ht : t ∈ l.slots)
    (h : s.name ≠ t.name) (d : σ) (b : s.Value) : t.get (s.put d b) = t.get d := by
  have hne : s ≠ t := fun he => h (congrArg Slot.name he)
  exact (l.apart.forall hs ht hne).1 d b

theorem step_unknown (h : ∀ s ∈ l.slots, s.name ≠ name) : l.Step d (name, v) e ↔ e = d := by
  constructor
  · intro hs
    cases hs with
    | unknown _ => rfl
    | known hm _ _ => exact absurd rfl (h _ hm)
  · rintro rfl
    exact .unknown h

theorem step_known (hs : s ∈ l.slots) :
    l.Step d (s.name, v) e ↔ s.get d = none ∧ s.Takes d v e := by
  constructor
  · intro h
    generalize hn : s.name = name at h
    cases h with
    | unknown h => exact absurd hn (h s hs)
    | known ht hd hv =>
      obtain rfl := l.eq_of_name hs ht hn
      exact ⟨hd, hv⟩
  · rintro ⟨hd, hv⟩
    exact .known hs hd hv

theorem run_cons {m : String × Document} :
    l.Run d (m :: ms) e ↔ ∃ f, l.Step d m f ∧ l.Run f ms e := by
  constructor
  · intro h
    cases h with
    | cons head tail => exact ⟨_, head, tail⟩
  · rintro ⟨f, head, tail⟩
    exact .cons head tail

theorem run_nil : l.Run d [] e ↔ e = d := by
  constructor
  · intro h
    cases h with
    | nil => rfl
  · rintro rfl
    exact .nil

/-- Slots are filled independently: members do to a draft what those of each name do to its slot. -/
theorem run_iff : l.Run d ms e ↔ ∀ s ∈ l.slots, s.Holds d ms e := by
  induction ms generalizing d with
  | nil =>
    rw [run_nil]
    constructor
    · rintro rfl s _
      exact Slot.holds_nil.mpr rfl
    · intro h
      exact l.ext e d fun s hs => Slot.holds_nil.mp (h s hs)
  | cons m ms ih =>
    obtain ⟨name, v⟩ := m
    rw [run_cons]
    simp only [ih]
    -- a member of a known name fills its slot and leaves the others to the members behind it
    by_cases hk : ∃ s ∈ l.slots, s.name = name
    · obtain ⟨s, hs, rfl⟩ := hk
      simp only [step_known hs]
      constructor
      · rintro ⟨f, ⟨hd, b, hv, rfl⟩, h⟩ t ht
        by_cases hn : s.name = t.name
        · obtain rfl := l.eq_of_name hs ht hn
          obtain ⟨hms, he⟩ := (Slot.holds_put b).mp (h s hs)
          exact Slot.holds_cons_self.mpr ⟨hd, b, hv, hms, he⟩
        · rw [Slot.holds_cons_of_ne v hn, ← Slot.holds_congr (l.frame hs ht hn d b)]
          exact h t ht
      · intro h
        obtain ⟨hd, b, hv, hms, he⟩ := Slot.holds_cons_self.mp (h s hs)
        refine ⟨s.put d b, ⟨hd, b, hv, rfl⟩, fun t ht => ?_⟩
        by_cases hn : s.name = t.name
        · obtain rfl := l.eq_of_name hs ht hn
          exact (Slot.holds_put b).mpr ⟨hms, he⟩
        · rw [Slot.holds_congr (l.frame hs ht hn d b), ← Slot.holds_cons_of_ne v hn]
          exact h t ht
    · have hk : ∀ s ∈ l.slots, s.name ≠ name := fun s hs hn => hk ⟨s, hs, hn⟩
      simp only [step_unknown hk, exists_eq_left]
      exact forall₂_congr fun s hs => (Slot.holds_cons_of_ne v (hk s hs).symm).symm

/-- The items of a list fill the slots in their order; there may be fewer of them. -/
inductive Fills : List (Slot σ) → σ → List Document → σ → Prop
  | nil {slots : List (Slot σ)} {d : σ} : Fills slots d [] d
  | cons {s : Slot σ} {slots : List (Slot σ)} {d e f : σ} {v : Document} {vs : List Document}
      (head : s.Takes d v e) (tail : Fills slots e vs f) : Fills (s :: slots) d (v :: vs) f

section Fills

variable {slots : List (Slot σ)} {vs : List Document}

theorem fills_nil : Fills slots d [] e ↔ e = d := by
  constructor
  · intro h
    cases h with
    | nil => rfl
  · rintro rfl
    exact .nil

theorem fills_cons :
    Fills (s :: slots) d (v :: vs) e ↔ ∃ f, s.Takes d v f ∧ Fills slots f vs e := by
  constructor
  · intro h
    cases h with
    | cons head tail => exact ⟨_, head, tail⟩
  · rintro ⟨f, head, tail⟩
    exact .cons head tail

end Fills

/-- The records that a document makes: the drafts that its members or its items fill, as far as they
hold every field that has no default. -/
inductive Makes (l : Layout r) : Document → α → Prop
  | object {ms : List (String × Document)} {d : σ} {a : α} (h : l.Run r.blank ms d)
      (hd : r.finish d = .ok a) : Makes l (.object ms) a
  | list {vs : List Document} {d : σ} {a : α} (h : Fills l.slots r.blank vs d)
      (hd : r.finish d = .ok a) : Makes l (.list vs) a

theorem makes_object {a : α} :
    l.Makes (.object ms) a ↔ ∃ d, l.Run r.blank ms d ∧ r.finish d = .ok a := by
  constructor
  · intro h
    cases h with
    | object h hd => exact ⟨_, h, hd⟩
  · rintro ⟨d, h, hd⟩
    exact .object h hd

theorem makes_list {vs : List Document} {a : α} :
    l.Makes (.list vs) a ↔ ∃ d, Fills l.slots r.blank vs d ∧ r.finish d = .ok a := by
  constructor
  · intro h
    cases h with
    | list h hd => exact ⟨_, h, hd⟩
  · rintro ⟨d, h, hd⟩
    exact .list h hd

end Layout
end Json
end FaultCodec
