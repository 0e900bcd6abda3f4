import FaultCodec.Toml.Tree
import Mathlib.Data.List.Nodup

/-!
# Distinct keys

No table of a document has two entries of one name. Entries are added where their name was looked
for and not found, or put in the place of one that was found. The table whose lines are being read
is put into the tree only when they end; that its name is still free then is remembered from its
header on.
-/

namespace FaultCodec
namespace Toml

/-- The names of all tables in a node are distinct. -/
inductive Node.Tidy : Node → Prop
  | string {span : Span} {text : String} : Tidy (.string span text)
  | integer {span : Span} {n : Int} : Tidy (.integer span n)
  | float {span : Span} {text : String} : Tidy (.float span text)
  | boolean {span : Span} {b : Bool} : Tidy (.boolean span b)
  | datetime {span : Span} : Tidy (.datetime span)
  | array {span : Span} {items : List Node} (h : ∀ n ∈ items, Tidy n) : Tidy (.array span items)
  | tables {span : Option Span} {items : List Node} (h : ∀ n ∈ items, Tidy n) :
    Tidy (.tables span items)
  | table {span : Option Span} {isInline : Bool} {form : Form} {entries : List (Key × Node)}
    (hk : (entries.map fun e => e.1.name).Nodup) (h : ∀ e ∈ entries, Tidy e.2) :
    Tidy (.table span isInline form entries)

namespace Entries

def names (es : Entries) : List String := es.map fun e => e.1.name

/-- The names of the entries are distinct, and so are those of all tables in them. -/
structure Tidy (es : Entries) : Prop where
  nodup : es.names.Nodup
  nodes : ∀ e ∈ es, e.2.Tidy

theorem find?_eq_none_iff (es : Entries) (name : String) :
    es.find? name = none ↔ name ∉ es.names := by
  simp [find?, names]

theorem exists_mem_of_find? {es : Entries} {name : String} {node : Node}
    (h : es.find? name = some node) : ∃ key : Key, key.name = name ∧ (key, node) ∈ es := by
  obtain ⟨⟨key, n⟩, he, hn⟩ := Option.map_eq_some_iff.mp h
  cases hn
  refine ⟨key, ?_, List.mem_of_find?_eq_some he⟩
  simpa using List.find?_some he

@[simp] theorem names_replace (es : Entries) (name : String) (node : Node) :
    (es.replace name node).names = es.names := by
  unfold names replace
  rw [List.map_map]
  apply List.map_congr_left
  intro e _
  by_cases h : e.1.name = name <;> simp [h]

theorem find?_replace {es : Entries} {name : String} {old : Node}
    (h : es.find? name = some old) (node : Node) :
    (es.replace name node).find? name = some node := by
  induction es with
  | nil => cases h
  | cons e es ih =>
    by_cases he : e.1.name = name
    · simp [find?, replace, he]
    · have hes : find? es name = some old := by simpa [find?, he] using h
      simpa [find?, replace, he] using ih hes

theorem find?_append_of_none {es : Entries} {key : Key} (h : es.find? key.name = none)
    (node : Node) : find? (es ++ [(key, node)]) key.name = some node := by
  have hes : List.find? (fun e => decide (e.1.name = key.name)) es = none :=
    Option.map_eq_none_iff.mp h
  simp only [find?, List.find?_append, hes]
  simp

@[simp] theorem find?_erase (es : Entries) (name : String) : (es.erase name).find? name = none := by
  rw [find?_eq_none_iff]
  simp [names, erase]

namespace Tidy

theorem nil : Tidy [] := ⟨List.nodup_nil, nofun⟩

theorem find? {es : Entries} (h : es.Tidy) {name : String} {node : Node}
    (hf : es.find? name = some node) : node.Tidy := by
  obtain ⟨key, _, hm⟩ := exists_mem_of_find? hf
  exact h.nodes _ hm

theorem append {es : Entries} (h : es.Tidy) {key : Key} (hk : es.find? key.name = none)
    {node : Node} (hn : node.Tidy) : Tidy (es ++ [(key, node)]) := by
  constructor
  · have hd : es.names.Disjoint [key.name] := by
      rw [List.disjoint_singleton]
      exact (es.find?_eq_none_iff key.name).mp hk
    have ha : names (es ++ [(key, node)]) = es.names ++ [key.name] := by simp [names]
    rw [ha]
    exact List.Nodup.append h.nodup (List.nodup_singleton _) hd
  · intro e he
    rcases List.mem_append.mp he with he | he
    · exact h.nodes e he
    · rw [List.mem_singleton.mp he]
      exact hn

theorem replace {es : Entries} (h : es.Tidy) (name : String) {node : Node} (hn : node.Tidy) :
    (es.replace name node).Tidy := by
  constructor
  · rw [names_replace]
    exact h.nodup
  · intro e he
    obtain ⟨old, ho, rfl⟩ := List.mem_map.mp he
    by_cases hname : old.1.name = name
    · simpa [hname] using hn
    · simpa [hname] using h.nodes old ho

theorem erase {es : Entries} (h : es.Tidy) (name : String) : (es.erase name).Tidy := by
  constructor
  · exact h.nodup.sublist (List.filter_sublist.map _)
  · intro e he
    exact h.nodes e (List.mem_of_mem_filter he)

theorem table {es : Entries} (h : es.Tidy) (span : Option Span) (isInline : Bool) (form : Form) :
    (Node.table span isInline form es).Tidy :=
  .table h.nodup h.nodes

end Tidy
end Entries

theorem Node.Tidy.entries {span : Option Span} {isInline : Bool} {form : Form} {es : Entries}
    (h : (Node.table span isInline form es).Tidy) : es.Tidy := by
  cases h with
  | table hk h => exact ⟨hk, h⟩

theorem Node.Tidy.items {span : Option Span} {items : List Node}
    (h : (Node.tables span items).Tidy) : ∀ n ∈ items, n.Tidy := by
  cases h with
  | tables h => exact h

namespace Entries

/-- What holds of the table at the end of a path, if that leads to one. -/
def AtEnd (P : Entries → Prop) : List Key → Entries → Prop
  | [], es => P es
  | key :: path, es =>
    match es.find? key.name with
    | none => AtEnd P path []
    | some (.table _ _ _ inner) => AtEnd P path inner
    | some (.tables _ items) =>
      match items.getLast? with
      | some (.table _ _ _ inner) => AtEnd P path inner
      | _ => True
    | some _ => True

theorem atEnd_of_forall {P : Entries → Prop} (h : ∀ es, P es) (path : List Key) (es : Entries) :
    AtEnd P path es := by
  induction path generalizing es with
  | nil => exact h es
  | cons key path ih =>
    unfold AtEnd
    split
    · exact ih _
    · exact ih _
    · split
      · exact ih _
      · trivial
    · trivial

section Update

variable {β : Type} {w : Walk} {change : Form → Entries → Option (Entries × β)}

/-- On the way along a path a table is made, or one is changed that is there already, or the last
one in a list of tables is. -/
theorem update_cons {key : Key} {path : List Key} {form : Form} {es es' : Entries} {b : β}
    (h : update w change (key :: path) form es = some (es', b)) :
    (∃ inner, es.find? key.name = none ∧
      update w change path w.newForm [] = some (inner, b) ∧
      es' = es ++ [(key, .table none w.isInline w.newForm inner)]) ∨
    (∃ span isInline f old inner, es.find? key.name = some (.table span isInline f old) ∧
      update w change path f old = some (inner, b) ∧
      es' = es.replace key.name (.table span isInline f inner)) ∨
    ∃ span items last isInline f old inner, es.find? key.name = some (.tables span items) ∧
      items.getLast? = some (.table last isInline f old) ∧
      update w change path f old = some (inner, b) ∧
      es' = es.replace key.name
        (.tables span (items.dropLast ++ [.table last isInline f inner])) := by
  unfold update at h
  split at h
  · next hf =>
    obtain ⟨⟨inner, _⟩, hu, he⟩ := Option.bind_eq_some_iff.mp h
    cases he
    exact Or.inl ⟨inner, hf, hu, rfl⟩
  · next span isInline f old hf =>
    split at h
    · cases h
    · obtain ⟨⟨inner, _⟩, hu, he⟩ := Option.bind_eq_some_iff.mp h
      cases he
      exact Or.inr (Or.inl ⟨span, isInline, f, old, inner, hf, hu, rfl⟩)
  · next span items hf =>
    split at h
    · next last isInline f old _ hl =>
      obtain ⟨⟨inner, _⟩, hu, he⟩ := Option.bind_eq_some_iff.mp h
      cases he
      exact Or.inr (Or.inr ⟨span, items, last, isInline, f, old, inner, hf, hl, hu, rfl⟩)
    · cases h
  · cases h

/-- A change at the end of a path that keeps names distinct keeps all names distinct. The change may
count on what is known of the table that it is made to. -/
theorem tidy_update {P : Entries → Prop} {Q : β → Prop}
    (hc : ∀ form es es' b, es.Tidy → P es → change form es = some (es', b) → es'.Tidy ∧ Q b)
    {path : List Key} {form : Form} {es es' : Entries} {b : β}
    (h : update w change path form es = some (es', b)) (ht : es.Tidy) (hp : AtEnd P path es) :
    es'.Tidy ∧ Q b := by
  induction path generalizing form es es' b with
  | nil => exact hc _ _ _ _ ht hp h
  | cons key path ih =>
    rcases update_cons h with ⟨inner, hf, hu, rfl⟩ | ⟨span, isInline, f, old, inner, hf, hu, rfl⟩ |
      ⟨span, items, last, isInline, f, old, inner, hf, hl, hu, rfl⟩
    · have hold : AtEnd P path [] := by simpa [AtEnd, hf] using hp
      obtain ⟨hi, hq⟩ := ih hu Tidy.nil hold
      exact ⟨ht.append hf (hi.table _ _ _), hq⟩
    · have hold : AtEnd P path old := by simpa [AtEnd, hf] using hp
      obtain ⟨hi, hq⟩ := ih hu (ht.find? hf).entries hold
      exact ⟨ht.replace _ (hi.table _ _ _), hq⟩
    · have hold : AtEnd P path old := by simpa [AtEnd, hf, hl] using hp
      have hitems := (ht.find? hf).items
      obtain ⟨hi, hq⟩ := ih hu (hitems _ (List.mem_of_getLast? hl)).entries hold
      refine ⟨ht.replace _ (.tables ?_), hq⟩
      intro n hn
      rcases List.mem_append.mp hn with hn | hn
      · exact hitems n (List.dropLast_subset items hn)
      · rw [List.mem_singleton.mp hn]
        exact hi.table _ _ _

theorem tidy_update_anywhere {Q : β → Prop}
    (hc : ∀ form es es' b, es.Tidy → change form es = some (es', b) → es'.Tidy ∧ Q b)
    {path : List Key} {form : Form} {es es' : Entries} {b : β}
    (h : update w change path form es = some (es', b)) (ht : es.Tidy) : es'.Tidy ∧ Q b :=
  tidy_update (P := fun _ => True) (fun form es es' b ho _ => hc form es es' b ho) h ht
    (atEnd_of_forall (fun _ => trivial) path es)

theorem atEnd_update {P : Entries → Prop}
    (hc : ∀ form es es' b, change form es = some (es', b) → P es')
    {path : List Key} {form : Form} {es es' : Entries} {b : β}
    (h : update w change path form es = some (es', b)) : AtEnd P path es' := by
  induction path generalizing form es es' b with
  | nil => exact hc _ _ _ _ h
  | cons key path ih =>
    rcases update_cons h with ⟨inner, hf, hu, rfl⟩ | ⟨span, isInline, f, old, inner, hf, hu, rfl⟩ |
      ⟨span, items, last, isInline, f, old, inner, hf, hl, hu, rfl⟩
    · simpa only [AtEnd, find?_append_of_none hf] using ih hu
    · simpa only [AtEnd, find?_replace hf] using ih hu
    · simpa only [AtEnd, find?_replace hf, List.getLast?_concat] using ih hu

end Update

theorem Tidy.add {isInline : Bool} {es es' : Entries} (h : es.Tidy) {path : List Key} {key : Key}
    {value : Node} (hv : value.Tidy) (ha : es.add isInline path key value = some es') :
    es'.Tidy := by
  obtain ⟨⟨_, _⟩, hu, he⟩ := Option.bind_eq_some_iff.mp ha
  cases he
  refine (tidy_update_anywhere (Q := fun _ => True) ?_ hu h).1
  intro form old new _ ho hi
  split at hi
  · cases hi
  · split at hi
    · cases hi
    · next hf =>
      cases hi
      exact ⟨ho.append (by simpa using hf) hv, trivial⟩

end Entries

/-- A statement whose value has distinct names. -/
def Statement.Tidy : Statement → Prop
  | .entry _ _ value => value.Tidy
  | .header _ _ _ => True
  | .tablesHeader _ _ _ => True

namespace Builder

/-- Names are distinct, and the name of the table that is being read is free where it belongs. -/
structure Tidy (b : Builder) : Prop where
  tree : b.tree.Tidy
  entries : b.entries.Tidy
  free : ∀ s, b.current = some s → s.isListed = false →
    Entries.AtEnd (fun es => es.find? s.key.name = none) s.path b.tree

theorem tidy_empty : Tidy {} := ⟨.nil, .nil, nofun⟩

theorem Tidy.close {b : Builder} (h : b.Tidy) {es : Entries} (hc : b.close = some es) :
    es.Tidy := by
  unfold Builder.close at hc
  split at hc
  · cases hc
    exact h.entries
  · next s hs =>
    obtain ⟨⟨_, _⟩, hu, he⟩ := Option.map_eq_some_iff.mp hc
    cases he
    have htable := h.entries.table (some s.span) false .explicit
    by_cases hl : s.isListed = true
    · refine (Entries.tidy_update_anywhere (Q := fun _ => True) ?_ hu h.tree).1
      intro form old new _ ho hp
      simp only [hl, if_true] at hp
      split at hp
      · next hf =>
        cases hp
        refine ⟨ho.replace _ (.tables ?_), trivial⟩
        intro n hn
        rcases List.mem_append.mp hn with hn | hn
        · exact (ho.find? hf).items n hn
        · rw [List.mem_singleton.mp hn]
          exact htable
      · cases hp
    · have hfree := h.free s hs (by simpa using hl)
      refine (Entries.tidy_update (Q := fun _ => True) ?_ hu h.tree hfree).1
      intro form old new _ ho hf hp
      simp only [hl, if_false, Bool.false_eq_true] at hp
      cases hp
      exact ⟨ho.append hf htable, trivial⟩

theorem tidy_takeImplied {key : Key} {form : Form} {es es' inner : Entries} (h : es.Tidy)
    (ht : takeImplied key form es = some (es', inner)) : es'.Tidy ∧ inner.Tidy := by
  unfold takeImplied at ht
  split at ht
  · cases ht
    exact ⟨h, .nil⟩
  · next hf =>
    cases ht
    exact ⟨h.erase _, (h.find? hf).entries⟩
  · cases ht

/-- The name of a table is free when its lines start. -/
theorem find?_takeImplied {key : Key} {form : Form} {es es' inner : Entries}
    (ht : takeImplied key form es = some (es', inner)) : es'.find? key.name = none := by
  unfold takeImplied at ht
  split at ht
  · next hf =>
    cases ht
    exact hf
  · cases ht
    exact es.find?_erase key.name
  · cases ht

theorem tidy_ensureList {key : Key} {form : Form} {es es' inner : Entries} (h : es.Tidy)
    (ht : ensureList key form es = some (es', inner)) : es'.Tidy ∧ inner.Tidy := by
  unfold ensureList at ht
  split at ht
  · next hf =>
    cases ht
    exact ⟨h.append hf (.tables nofun), .nil⟩
  · cases ht
    exact ⟨h, .nil⟩
  · cases ht

theorem Tidy.say {b b' : Builder} (h : b.Tidy) {st : Statement} (hst : st.Tidy)
    (hs : b.say st = some b') : b'.Tidy := by
  cases st with
  | entry path key value =>
    obtain ⟨es, ha, he⟩ := Option.bind_eq_some_iff.mp hs
    cases he
    refine ⟨h.tree, h.entries.add hst ha, ?_⟩
    intro s hs hl
    obtain ⟨old, ho, rfl⟩ := Option.map_eq_some_iff.mp hs
    exact h.free old ho hl
  | header path key span =>
    obtain ⟨tree, hc, hr⟩ := Option.bind_eq_some_iff.mp hs
    obtain ⟨⟨tree', es⟩, hu, he⟩ := Option.bind_eq_some_iff.mp hr
    cases he
    obtain ⟨ht, hes⟩ := Entries.tidy_update_anywhere (Q := Entries.Tidy)
      (fun _ _ _ _ ho hk => tidy_takeImplied ho hk) hu (h.close hc)
    refine ⟨ht, hes, ?_⟩
    intro s hs _
    cases hs
    exact Entries.atEnd_update (fun _ _ _ _ hk => find?_takeImplied hk) hu
  | tablesHeader path key span =>
    obtain ⟨tree, hc, hr⟩ := Option.bind_eq_some_iff.mp hs
    obtain ⟨⟨tree', es⟩, hu, he⟩ := Option.bind_eq_some_iff.mp hr
    cases he
    obtain ⟨ht, hes⟩ := Entries.tidy_update_anywhere (Q := Entries.Tidy)
      (fun _ _ _ _ ho hk => tidy_ensureList ho hk) hu (h.close hc)
    refine ⟨ht, hes, ?_⟩
    intro s hs hl
    cases hs
    cases hl

theorem Tidy.sayAll {b b' : Builder} (h : b.Tidy) {sts : List Statement}
    (hsts : ∀ st ∈ sts, st.Tidy) (hs : sts.foldlM Builder.say b = some b') : b'.Tidy := by
  induction sts generalizing b with
  | nil =>
    cases hs
    exact h
  | cons st sts ih =>
    rw [List.foldlM_cons] at hs
    obtain ⟨next, hn, hs⟩ := Option.bind_eq_some_iff.mp hs
    exact ih (h.say (hsts st List.mem_cons_self) hn)
      (fun st hm => hsts st (List.mem_cons_of_mem _ hm)) hs

end Builder

theorem tidy_build {sts : List Statement} (hsts : ∀ st ∈ sts, st.Tidy) {es : Entries}
    (h : build sts = some es) : es.Tidy := by
  obtain ⟨b, hb, hc⟩ := Option.bind_eq_some_iff.mp h
  exact (Builder.tidy_empty.sayAll hsts hb).close hc

end Toml
end FaultCodec
