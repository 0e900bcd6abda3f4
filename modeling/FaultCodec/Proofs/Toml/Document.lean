import FaultCodec.Proofs.Toml.Tree
import FaultCodec.Toml.Document

/-!
# Documents have distinct keys

Values nest to a fixed depth, so what holds of all values is shown by induction on the depth that is
left; the entries of inline tables are added by the same rule as those of the document. Whatever
text is read as a document has no table with two entries of one name.
-/

namespace FaultCodec
namespace Toml

/-- All nodes that a reader gives have distinct names. -/
def ReadsTidy (read : Scan Node) : Prop := ∀ s node rest, read s = some (node, rest) → node.Tidy

theorem tidy_of_keyValue {read : Scan Node} (hr : ReadsTidy read) {s rest : List Char}
    {path : List Key} {last : Key} {value : Node}
    (h : keyValue read s = some ((path, last, value), rest)) : value.Tidy := by
  obtain ⟨⟨⟨_, _⟩, _⟩, _, h⟩ := Option.bind_eq_some_iff.mp h
  obtain ⟨_, _, h⟩ := Option.bind_eq_some_iff.mp h
  obtain ⟨⟨v, _⟩, hv, h⟩ := Option.bind_eq_some_iff.mp h
  cases h
  exact hr _ _ _ hv

theorem tidy_of_elements {read : Scan Node} (hr : ReadsTidy read) {bound : Nat}
    {s rest : List Char} {vs : List Node} (h : elements read bound s = some (vs, rest)) :
    ∀ v ∈ vs, v.Tidy := by
  induction bound generalizing s vs rest with
  | zero => cases h
  | succ bound ih =>
    unfold elements at h
    split at h
    · cases h
      exact nofun
    · obtain ⟨⟨v, _⟩, hv, h⟩ := Option.bind_eq_some_iff.mp h
      dsimp only at h
      split at h
      · obtain ⟨⟨more, _⟩, hm, h⟩ := Option.bind_eq_some_iff.mp h
        cases h
        intro n hn
        rcases List.mem_cons.mp hn with rfl | hn
        · exact hr _ _ _ hv
        · exact ih hm n hn
      · cases h
        intro n hn
        rw [List.mem_singleton.mp hn]
        exact hr _ _ _ hv
      · cases h

theorem tidy_of_inlineEntries {read : Scan Node} (hr : ReadsTidy read) {bound : Nat}
    {es es' : Entries} {s rest : List Char} (hes : es.Tidy)
    (h : inlineEntries read bound es s = some (es', rest)) : es'.Tidy := by
  induction bound generalizing es s with
  | zero => cases h
  | succ bound ih =>
    obtain ⟨⟨⟨path, last, value⟩, _⟩, hk, h⟩ := Option.bind_eq_some_iff.mp h
    obtain ⟨added, ha, h⟩ := Option.bind_eq_some_iff.mp h
    have hadded := hes.add (tidy_of_keyValue hr hk) ha
    split at h
    · exact ih hadded h
    · cases h
      exact hadded
    · cases h

theorem readsTidy_numberOrDate : ReadsTidy numberOrDate := by
  intro s node rest h
  unfold numberOrDate at h
  split at h
  · cases h
    exact .datetime
  · split at h
    · cases h
      exact .float
    · obtain ⟨⟨_, _⟩, _, h⟩ := Option.bind_eq_some_iff.mp h
      cases h
      exact .integer

theorem readsTidy_valueWith {inner : Scan Node} (hr : ReadsTidy inner) :
    ReadsTidy (valueWith inner) := by
  intro s node rest h
  unfold valueWith at h
  split at h
  · obtain ⟨⟨_, _⟩, hv, h⟩ := Option.bind_eq_some_iff.mp h
    cases h
    exact .array (tidy_of_elements hr hv)
  · split at h
    · cases h
      exact Entries.Tidy.nil.table _ _ _
    · obtain ⟨⟨_, _⟩, he, h⟩ := Option.bind_eq_some_iff.mp h
      cases h
      exact (tidy_of_inlineEntries hr .nil he).table _ _ _
  · cases h
    exact .boolean
  · cases h
    exact .boolean
  · split at h
    · cases h
      exact .string
    · exact readsTidy_numberOrDate _ _ _ h

theorem readsTidy_value (depth : Nat) : ReadsTidy (value depth) := by
  induction depth with
  | zero =>
    intro s node rest h
    unfold value at h
    split at h
    · cases h
    · cases h
    · have hn : ReadsTidy fun _ => none := nofun
      exact readsTidy_valueWith hn _ _ _ h
  | succ depth ih => exact readsTidy_valueWith ih

theorem tidy_of_header {s rest : List Char} {st : Statement} (h : header s = some (st, rest)) :
    st.Tidy := by
  unfold header at h
  split at h
  · obtain ⟨⟨⟨_, _⟩, _⟩, _, h⟩ := Option.bind_eq_some_iff.mp h
    obtain ⟨_, _, h⟩ := Option.bind_eq_some_iff.mp h
    obtain ⟨_, _, h⟩ := Option.bind_eq_some_iff.mp h
    obtain ⟨_, _, h⟩ := Option.bind_eq_some_iff.mp h
    cases h
    trivial
  · obtain ⟨⟨⟨_, _⟩, _⟩, _, h⟩ := Option.bind_eq_some_iff.mp h
    obtain ⟨_, _, h⟩ := Option.bind_eq_some_iff.mp h
    obtain ⟨_, _, h⟩ := Option.bind_eq_some_iff.mp h
    cases h
    trivial
  · cases h

theorem tidy_of_statements {bound : Nat} {s : List Char} {sts : List Statement}
    (h : statements bound s = some sts) : ∀ st ∈ sts, st.Tidy := by
  induction bound generalizing s sts with
  | zero => cases h
  | succ bound ih =>
    unfold statements at h
    split at h
    · cases h
      exact nofun
    · obtain ⟨⟨st, _⟩, hh, h⟩ := Option.bind_eq_some_iff.mp h
      obtain ⟨more, hm, h⟩ := Option.bind_eq_some_iff.mp h
      cases h
      exact List.forall_mem_cons.mpr ⟨tidy_of_header hh, ih hm⟩
    · split at h
      · exact ih h
      · obtain ⟨⟨⟨_, _, _⟩, _⟩, hk, h⟩ := Option.bind_eq_some_iff.mp h
        obtain ⟨_, _, h⟩ := Option.bind_eq_some_iff.mp h
        obtain ⟨more, hm, h⟩ := Option.bind_eq_some_iff.mp h
        cases h
        exact List.forall_mem_cons.mpr ⟨tidy_of_keyValue (readsTidy_value _) hk, ih hm⟩

/-- No table of a document has two entries of one name. -/
theorem tidy_of_document {text : List Char} {es : Entries} (h : document text = some es) :
    es.Tidy := by
  obtain ⟨sts, hs, hb⟩ := Option.bind_eq_some_iff.mp h
  exact tidy_build (tidy_of_statements hs) hb

end Toml
end FaultCodec
