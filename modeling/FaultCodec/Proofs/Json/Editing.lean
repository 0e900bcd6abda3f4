import FaultCodec.Proofs.Json.Filling
import FaultCodec.Proofs.Json.Whole

/-!
# Edited objects

An object is edited by removing the members of some names, putting the others into any order and
adding members of names that nobody knows. A slot finds in an edited object the value of its member
if that was kept, and nothing if it was removed.
-/

namespace FaultCodec
namespace Json

open Document (named)

namespace Document

/-- The members of some names have been removed, the others put into any order, and members of names
that are not known added. -/
inductive Edits (known removed : List String) : Document → Document → Prop
  | object {ms ns others : List (String × Document)} (hnew : ∀ m ∈ others, m.1 ∉ known)
      (h : ns.Perm (ms.filter (·.1 ∉ removed) ++ others)) :
      Edits known removed (.object ms) (.object ns)

/-- The document with another value for the members of a name. -/
def replace (v : Document) (name : String) (w : Document) : Document :=
  match v with
  | .object ms => .object (ms.map fun m => if m.1 = name then (name, w) else m)
  | v => v

theorem Edits.refl {known : List String} (ms : List (String × Document)) :
    Edits known [] (.object ms) (.object ms) := by
  have hp : ms.Perm (ms.filter (·.1 ∉ []) ++ []) := by simp
  refine .object ?_ hp
  nofun

theorem Edits.exists_object {known removed : List String} {v w : Document}
    (h : Edits known removed v w) : ∃ ns, w = .object ns := by
  cases h with
  | object _ _ => exact ⟨_, rfl⟩

section Named

variable {removed : List String} {name : String} {ms ns : List (String × Document)}

theorem named_append (name : String) (ms ns : List (String × Document)) :
    named name (ms ++ ns) = named name ms ++ named name ns :=
  List.filterMap_append

theorem named_eq_nil (h : ∀ m ∈ ms, m.1 ≠ name) : named name ms = [] :=
  List.filterMap_eq_nil_iff.mpr fun m hm => if_neg (h m hm)

theorem named_filter_of_mem (h : name ∈ removed) (ms : List (String × Document)) :
    named name (ms.filter (·.1 ∉ removed)) = [] := by
  apply named_eq_nil
  rintro m hm rfl
  simpa [h] using List.of_mem_filter hm

theorem named_filter_of_not_mem (h : name ∉ removed) (ms : List (String × Document)) :
    named name (ms.filter (·.1 ∉ removed)) = named name ms := by
  rw [named, named, List.filterMap_filter]
  refine List.filterMap_congr fun m _ => ?_
  by_cases hn : m.1 = name
  · simp [hn, h]
  · simp [hn]

end Named

end Document

/-- What is left of the value of a name when the members of some names are removed. -/
def kept {α : Type} (removed : List String) (name : String) (o : Option α) : Option α :=
  if name ∈ removed then none else o

theorem getD_kept {α : Type} (removed : List String) (name : String) (a b : α) :
    (kept removed name (some a)).getD b = if name ∈ removed then b else a := by
  rw [kept]
  split_ifs <;> rfl

/-! ## Slots and their members -/

namespace Slot

variable {σ : Type}

def text (name : String) (get : σ → Option String) (put : σ → String → σ)
    (h : ∀ d b, get (put d b) = some b) : Slot σ where
  name := name
  Value := String
  read := readText
  Means := fun v a => v = .string a
  get := get
  put := put
  decides := decides_readText
  get_put := h

/-- A whole number under a name; `expected` names what the number is for. -/
def unsigned (name expected : String) (get : σ → Option UInt64) (put : σ → UInt64 → σ)
    (h : ∀ d b, get (put d b) = some b) : Slot σ where
  name := name
  Value := UInt64
  read := readUnsigned expected
  Means := fun v n => ∃ m : Numeral, v = .number m ∧ m.Counts n.toNat
  get := get
  put := put
  decides := decides_readUnsigned expected
  get_put := h

/-- An empty slot ends up with the given value, or empty, by what the members do to it. -/
def Finds (s : Slot σ) (ms : List (String × Document)) (o : Option s.Value) : Prop :=
  ∀ d e, s.get d = none → (s.Holds d ms e ↔ s.get e = o)

section Finds

variable {s : Slot σ} {known removed : List String} {d e : σ} {ms ns : List (String × Document)}

theorem finds_none (h : named s.name ms = []) : s.Finds ms none := by
  intro d e hd
  simp [Holds, h, hd]

theorem finds_some {v : Document} {c : s.Value} (h : named s.name ms = [v])
    (hv : ∀ b, s.Means v b ↔ b = c) : s.Finds ms (some c) := by
  intro d e hd
  simp [holds_of_empty hd, h, hv]

/-- Only the members of its name do anything to a slot. -/
theorem holds_of_named_eq (h : named s.name ms = named s.name ns) :
    s.Holds d ms e ↔ s.Holds d ns e := by
  simp only [Holds, h]

/-- An edit does to a slot what removing its member does, or nothing. -/
theorem holds_edits (h : (Document.object ms).Edits known removed (.object ns))
    (hs : s.name ∈ known) :
    s.Holds d ns e ↔ s.Holds d (if s.name ∈ removed then [] else ms) e := by
  cases h with
  | @object _ _ others hnew hperm =>
    have hothers : named s.name others = [] :=
      Document.named_eq_nil fun m hm hn => hnew m hm (hn ▸ hs)
    have hp : s.Holds d ns e ↔ s.Holds d (ms.filter (·.1 ∉ removed) ++ others) e :=
      ⟨fun hn => hn.of_perm hperm, fun hn => hn.of_perm hperm.symm⟩
    rw [hp]
    apply holds_of_named_eq
    rw [Document.named_append, hothers, List.append_nil]
    split_ifs with hr
    · exact Document.named_filter_of_mem hr ms
    · exact Document.named_filter_of_not_mem hr ms

/-- What a slot finds it finds in an edited object too, unless its member was removed. -/
theorem finds_edits {o : Option s.Value} (h : (Document.object ms).Edits known removed (.object ns))
    (hs : s.name ∈ known) (hf : s.name ∉ removed → s.Finds ms o) :
    s.Finds ns (kept removed s.name o) := by
  intro d e hd
  rw [holds_edits h hs, kept]
  split_ifs with hr
  · exact finds_none rfl d e hd
  · exact hf hr d e hd

theorem not_holds_edits (h : (Document.object ms).Edits known removed (.object ns))
    (hs : s.name ∈ known) (hr : s.name ∉ removed) {v : Document} (hn : named s.name ms = [v])
    (hv : ∀ b, ¬s.Means v b) : ¬s.Holds d ns e := by
  rw [holds_edits h hs, if_neg hr]
  simp [Holds, hn, hv]

end Finds

section Text

variable {name : String} {get : σ → Option String} {put : σ → String → σ}
  {h : ∀ d b, get (put d b) = some b} {ms : List (String × Document)}

theorem finds_text {a : String} (hn : named name ms = [.string a]) :
    (text name get put h).Finds ms (some a) :=
  finds_some hn fun (b : String) => by simp [text, eq_comm]

end Text

section Unsigned

variable {name expected : String} {get : σ → Option UInt64} {put : σ → UInt64 → σ}
  {h : ∀ d b, get (put d b) = some b} {ms : List (String × Document)}

theorem finds_unsigned {n : UInt64} (hn : named name ms = [.number (.ofNat n.toNat)]) :
    (unsigned name expected get put h).Finds ms (some n) := by
  have hc := Numeral.counts_ofNat n.toNat_lt
  refine finds_some hn fun k => ?_
  constructor
  · rintro ⟨m, hm, hk⟩
    cases hm
    exact UInt64.toNat_inj.mp (hk.value.symm.trans hc.value)
  · rintro rfl
    exact ⟨_, rfl, hc⟩

end Unsigned

end Slot

theorem Layout.run_of_finds {σ α : Type} {r : Record σ α} {l : Layout r} {d e : σ}
    {ms : List (String × Document)} (hd : ∀ s ∈ l.slots, s.get d = none) (f : σ)
    (h : ∀ s ∈ l.slots, s.Finds ms (s.get f)) : l.Run d ms e ↔ e = f := by
  rw [run_iff]
  constructor
  · intro he
    exact l.ext e f fun s hs => (h s hs d e (hd s hs)).mp (he s hs)
  · rintro rfl s hs
    exact (h s hs d e (hd s hs)).mpr rfl

end Json
end FaultCodec
