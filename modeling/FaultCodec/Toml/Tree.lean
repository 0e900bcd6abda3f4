import FaultCodec.Toml.Node

/-!
# Building tables

The rules by which the statements of a document build its tables. A key may be given once. A header
may spell out a table that so far was only implied by headers below it, but no table twice, and none
that dotted keys or braces have made. Dotted keys may extend only tables that dotted keys have made.
-/

namespace FaultCodec
namespace Toml

/-- What a line of a document says, the last part of its key apart from the others. -/
inductive Statement where
  | entry (path : List Key) (key : Key) (value : Node)
  | header (path : List Key) (key : Key) (span : Span)
  | tablesHeader (path : List Key) (key : Key) (span : Span)

/-- Which tables a path leads through: those of braces or those of the document, and whether it is
the path of a dotted key. -/
structure Walk where
  isInline : Bool
  isDotted : Bool

def Walk.newForm (w : Walk) : Form := if w.isDotted then .dotted else .implicit

namespace Entries

/-- Changes the table at the end of a path, making the tables that are missing on the way; in a list
of tables the path leads through the last. -/
def update {β : Type} (w : Walk) (change : Form → Entries → Option (Entries × β)) :
    List Key → Form → Entries → Option (Entries × β)
  | [], form, es => change form es
  | key :: path, _, es =>
    match es.find? key.name with
    | none => do
      let (inner, b) ← update w change path w.newForm []
      some (es ++ [(key, .table none w.isInline w.newForm inner)], b)
    | some (.table span isInline form inner) =>
      if isInline ≠ w.isInline ∨ (w.isDotted = true ∧ form = .explicit) then none
      else do
        let (inner, b) ← update w change path form inner
        some (es.replace key.name (.table span isInline form inner), b)
    | some (.tables span items) =>
      match w.isInline, items.getLast? with
      | false, some (.table last isInline form inner) => do
        let (inner, b) ← update w change path form inner
        let node := Node.table last isInline form inner
        some (es.replace key.name (.tables span (items.dropLast ++ [node])), b)
      | _, _ => none
    | some _ => none

def add (isInline : Bool) (es : Entries) (path : List Key) (key : Key) (value : Node) :
    Option Entries := do
  let insert (form : Form) (es : Entries) : Option (Entries × Unit) :=
    if (form == .dotted) = path.isEmpty then none
    else if (es.find? key.name).isSome then none
    else some (es ++ [(key, value)], ())
  let (es, _) ← update ⟨isInline, !path.isEmpty⟩ insert path .explicit es
  some es

end Entries

/-- The table whose lines are being read: its place in the tree, whether it is one of a list, and
its span so far. -/
structure Section where
  path : List Key
  key : Key
  isListed : Bool
  span : Span

/-- The tree without the table whose lines are being read, and that table. -/
structure Builder where
  tree : Entries := []
  current : Option Section := none
  entries : Entries := []

namespace Builder

def headerWalk : Walk := ⟨false, false⟩

/-- The span of a list of tables, from the first to the last. -/
def listSpan (items : List Node) : Option Span := do
  let first ← items.head? >>= Node.span?
  let last ← items.getLast? >>= Node.span?
  some ⟨first.atStart, last.atEnd⟩

/-- Puts the current table into the tree. -/
def close (b : Builder) : Option Entries :=
  match b.current with
  | none => some b.entries
  | some s =>
    let table := Node.table (some s.span) false .explicit b.entries
    let place (_ : Form) (es : Entries) : Option (Entries × Unit) :=
      if s.isListed then
        match es.find? s.key.name with
        | some (.tables _ items) =>
          let items := items ++ [table]
          some (es.replace s.key.name (.tables (listSpan items) items), ())
        | _ => none
      else some (es ++ [(s.key, table)], ())
    (Entries.update headerWalk place s.path .explicit b.tree).map Prod.fst

/-- The entries that a table already has when its header is met. -/
def takeImplied (key : Key) (_ : Form) (es : Entries) : Option (Entries × Entries) :=
  match es.find? key.name with
  | none => some (es, [])
  | some (.table _ false .implicit inner) => some (es.erase key.name, inner)
  | some _ => none

/-- Makes sure that a list of tables is there when the header of one of them is met. -/
def ensureList (key : Key) (_ : Form) (es : Entries) : Option (Entries × Entries) :=
  match es.find? key.name with
  | none => some (es ++ [(key, .tables none [])], [])
  | some (.tables _ _) => some (es, [])
  | some _ => none

def say (b : Builder) : Statement → Option Builder
  | .entry path key value => do
    let entries ← b.entries.add false path key value
    let stop := value.span?.map Span.atEnd
    let current := b.current.map fun s =>
      { s with span := ⟨s.span.atStart, stop.getD s.span.atEnd⟩ }
    some { b with entries, current }
  | .header path key span => do
    let tree ← b.close
    let (tree, entries) ← Entries.update headerWalk (takeImplied key) path .explicit tree
    some ⟨tree, some ⟨path, key, false, span⟩, entries⟩
  | .tablesHeader path key span => do
    let tree ← b.close
    let (tree, entries) ← Entries.update headerWalk (ensureList key) path .explicit tree
    some ⟨tree, some ⟨path, key, true, span⟩, entries⟩

end Builder

/-- The tree of some statements, if they follow the rules. -/
def build (statements : List Statement) : Option Entries := do
  let b ← statements.foldlM Builder.say {}
  b.close

end Toml
end FaultCodec
