import FaultCodec.Proofs.Toml.Tree
import FaultCodec.Toml.Record
import FaultCodec.Toml.Scalar

/-!
# Records are read from tables

A table whose names are distinct is read as a record by what it holds under each name, in whatever
order the names stand and whatever it holds under other names. The draft of a table is the draft
that its entries are said to fill, one laid over the other.
-/

namespace FaultCodec
namespace Toml

namespace Node

def text? : Node → Option String
  | .string _ text => some text
  | _ => none

/-- A whole number of 64 bits that is not negative. -/
def unsigned? : Node → Option UInt64
  | .integer _ n => if 0 ≤ n ∧ n < Decimal.twoTo 63 then some (UInt64.ofNat n.toNat) else none
  | _ => none

def choice? {α : Type} (choices : List (String × α)) (node : Node) : Option α :=
  node.text?.bind fun name => choices.lookup name

def entries? : Node → Option Entries
  | .table _ _ _ es => some es
  | _ => none

theorem Tidy.of_entries? {node : Node} (h : node.Tidy) {es : Entries}
    (hes : node.entries? = some es) : es.Tidy := by
  cases node with
  | table =>
    cases hes
    exact h.entries
  | _ => cases hes

end Node

theorem readText_of_text? {node : Node} {text : String} (h : node.text? = some text) :
    readText node = .ok text := by
  cases node with
  | string =>
    cases h
    rfl
  | _ => cases h

theorem readUnsigned_of_unsigned? (expected : String) {node : Node} {n : UInt64}
    (h : node.unsigned? = some n) : readUnsigned expected node = .ok n := by
  cases node with
  | integer span m =>
    simp only [Node.unsigned?, Option.ite_none_right_eq_some, Option.some.injEq] at h
    obtain ⟨⟨hm, _⟩, rfl⟩ := h
    rw [readUnsigned, if_neg (Int.not_lt.mpr hm)]
  | _ => cases h

theorem readChoice_of_choice? {α : Type} {choices : List (String × α)} {node : Node} {a : α}
    (h : node.choice? choices = some a) : readChoice choices node = .ok a := by
  obtain ⟨name, hn, hc⟩ := Option.bind_eq_some_iff.mp h
  cases node with
  | string =>
    cases hn
    rw [readChoice, choose, hc]
  | _ => cases hn

namespace Entries

variable {α : Type} {view : Node → Option α}

/-- What is seen of the value of a name. -/
def value? (view : Node → Option α) (es : Entries) (name : String) : Option α :=
  (es.find? name).bind view

/-- A name stands for something that can be seen, or for nothing. -/
def Holds (view : Node → Option α) (es : Entries) (name : String) : Prop :=
  ∀ node, es.find? name = some node → ∃ a, view node = some a

instance (view : Node → Option α) (es : Entries) (name : String) :
    Decidable (es.Holds view name) :=
  decidable_of_iff ((es.find? name).all fun node => (view node).isSome) (by
    unfold Holds
    cases es.find? name <;> simp [Option.isSome_iff_exists])

theorem find?_of_mem {es : Entries} (h : es.names.Nodup) {e : Key × Node} (he : e ∈ es) :
    es.find? e.1.name = some e.2 := by
  induction es with
  | nil => cases he
  | cons first es ih =>
    obtain ⟨hf, hes⟩ := List.nodup_cons.mp h
    rcases List.mem_cons.mp he with rfl | he
    · simp [find?]
    · have hne : first.1.name ≠ e.1.name := by
        intro hn
        exact hf (List.mem_map.mpr ⟨e, he, hn.symm⟩)
      simpa [find?, hne] using ih hes he

theorem holds_of_value? {es : Entries} {name : String} {a : α}
    (h : es.value? view name = some a) : es.Holds view name := by
  intro node hn
  rw [value?, hn] at h
  exact ⟨a, h⟩

@[simp] theorem value?_nil (name : String) : value? view [] name = none := rfl

theorem value?_singleton (e : Key × Node) (name : String) :
    value? view [e] name = if e.1.name = name then view e.2 else none := by
  by_cases h : e.1.name = name <;> simp [value?, find?, h]

/-- Where the first name does not come again, nothing more can be seen of it. -/
theorem value?_cons {e : Key × Node} {es : Entries} (h : e.1.name ∉ es.names) (name : String) :
    value? view (e :: es) name = (value? view es name).or (value? view [e] name) := by
  rw [value?_singleton]
  by_cases hn : e.1.name = name
  · have hes : es.find? name = none := (es.find?_eq_none_iff name).mpr (hn ▸ h)
    have hv : es.value? view name = none := by rw [value?, hes, Option.bind_none]
    rw [hv, if_pos hn, Option.none_or]
    simp [value?, find?, hn]
  · rw [if_neg hn, Option.or_none]
    simp [value?, find?, hn]

end Entries

namespace Record

variable {σ α : Type}

/-- How the drafts of a record are filled: what some entries say is a draft, which is laid over the
one that there was before. -/
structure Filling (r : Record σ α) where
  said : Entries → σ
  onto : σ → σ → σ
  onto_assoc : ∀ a b c, onto (onto a b) c = onto a (onto b c)
  onto_blank : ∀ d, onto d r.blank = d
  said_nil : ∀ d, onto (said []) d = d
  said_cons : ∀ e es, e.1.name ∉ Entries.names es → said (e :: es) = onto (said es) (said [e])

/-- Entries of distinct names fill a draft with what they say, if each of them does. -/
theorem Filling.foldlM_readEntry {r : Record σ α} (f : r.Filling) {es : Entries}
    (hes : es.names.Nodup)
    (h : ∀ e ∈ es, ∀ d, r.readEntry d e = .ok (f.onto (f.said [e]) d)) (d : σ) :
    es.foldlM r.readEntry d = .ok (f.onto (f.said es) d) := by
  induction es generalizing d with
  | nil => exact congrArg Except.ok (f.said_nil d).symm
  | cons e es ih =>
    obtain ⟨he, hes⟩ := List.nodup_cons.mp hes
    have hrest := ih hes (fun e hm => h e (List.mem_cons_of_mem _ hm)) (f.onto (f.said [e]) d)
    rw [List.foldlM_cons, h e List.mem_cons_self d, f.said_cons e es he, f.onto_assoc]
    exact hrest

theorem Filling.ofEntries {r : Record σ α} (f : r.Filling) {es : Entries} (hes : es.names.Nodup)
    (h : ∀ e ∈ es, ∀ d, r.readEntry d e = .ok (f.onto (f.said [e]) d)) {a : α}
    (ha : r.finish (f.said es) = .ok a) : r.ofEntries es = .ok a := by
  rw [Record.ofEntries, f.foldlM_readEntry hes h, f.onto_blank]
  simp only [bind, Except.bind, ha]

/-- An entry of a known name is read by the field of that name, which puts the value into the
draft. -/
theorem Filling.readEntry_into {β : Type} {r : Record σ α} (f : r.Filling) {es : Entries}
    (hes : es.names.Nodup) {e : Key × Node} (he : e ∈ es) {read : Reader β} {put : σ → β → σ}
    {view : Node → Option β} {name : String} {d : σ}
    (hf : r.fields.find? (·.name = e.1.name) = some ⟨name, fun d => into read (put d)⟩)
    (hv : es.Holds view e.1.name) (hr : ∀ b, view e.2 = some b → read e.2 = .ok b)
    (hp : ∀ b, view e.2 = some b → put d b = f.onto (f.said [e]) d) :
    r.readEntry d e = .ok (f.onto (f.said [e]) d) := by
  obtain ⟨b, hb⟩ := hv e.2 (Entries.find?_of_mem hes he)
  rw [readEntry, hf, ← hp b hb]
  change within _ (into read (put d) e.2) = _
  rw [into, hr b hb]
  rfl

theorem readEntry_of_unknown {r : Record σ α} {e : Key × Node}
    (h : e.1.name ∉ r.fields.map Field.name) (d : σ) : r.readEntry d e = .ok d := by
  have hf : r.fields.find? (·.name = e.1.name) = none := by
    rw [List.find?_eq_none]
    intro field hm hn
    exact h (List.mem_map.mpr ⟨field, hm, of_decide_eq_true hn⟩)
  rw [readEntry, hf]

theorem read_of_entries? {r : Record σ α} {node : Node} {es : Entries}
    (h : node.entries? = some es) : r.read node = r.ofEntries es := by
  cases node with
  | table =>
    cases h
    rfl
  | _ => cases h

end Record
end Toml
end FaultCodec
