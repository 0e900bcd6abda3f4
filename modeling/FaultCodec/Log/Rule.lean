import FaultCodec.Log.Directive

/-!
# Filters of directives

A filter may be written as a list of directives between commas. Of the directives that do not depend
on spans, the most specific one that matches an event decides about it: the one with the longest
target, then the one with the most fields. Of two directives for the same events the later one
counts. An event that no directive matches is dropped.
-/

namespace FaultCodec
namespace Log

/-- A directive that can be decided without spans. -/
structure Rule where
  target : Option String
  fields : List String
  threshold : Threshold
  deriving Repr, DecidableEq

namespace Rule

/-- Directives about a span, or about the value of a field, only take effect within spans. -/
def ofDirective? (d : Directive) : Option Rule :=
  if d.span.isSome || d.fields.any FieldMatch.hasValue then none
  else some ⟨d.target, d.fields.map FieldMatch.name, d.threshold⟩

def compareNames : List String → List String → Ordering
  | [], [] => .eq
  | [], _ :: _ => .lt
  | _ :: _, [] => .gt
  | a :: as, b :: bs => (compare a b).then (compareNames as bs)

/-- The length of the target, more than zero where there is one. -/
def reach (r : Rule) : Nat := r.target.elim 0 fun t => t.utf8ByteSize + 1

/-- How specific a rule is; rules for the same events are equal. -/
def specificity (a b : Rule) : Ordering :=
  ((compare a.reach b.reach).then (compare a.fields.length b.fields.length)).then
    ((compare (a.target.getD "") (b.target.getD "")).then (compareNames a.fields b.fields))

/-- Puts a rule among others, the most specific ones first; it replaces a rule for the same
events. -/
def insert (r : Rule) : List Rule → List Rule
  | [] => [r]
  | s :: rest =>
    match specificity r s with
    | .gt => r :: s :: rest
    | .eq => r :: rest
    | .lt => s :: insert r rest

/-- Whether a rule is about events of a target with the given fields; where no fields are given,
every field is taken to be there. -/
def covers (r : Rule) (target : String) (fields? : Option (List String)) : Bool :=
  (r.target.elim true fun t => t.toList.isPrefixOf target.toList) &&
    fields?.elim true fun fields => r.fields.all fields.contains

/-- Up to which level the first rule that covers some events keeps them. -/
def thresholdOf (rules : List Rule) (target : String) (fields? : Option (List String)) :
    Threshold :=
  (rules.find? fun r => r.covers target fields?).bind Rule.threshold

end Rule

namespace Filter

def ofRules (rules : List Rule) : Filter where
  keeps e := (Rule.thresholdOf rules e.target (some e.fieldNames)).keeps e.level
  enables target l := (Rule.thresholdOf rules target none).keeps l

def ofDirectives (ds : List Directive) : Filter :=
  ofRules ((ds.filterMap Rule.ofDirective?).foldl (fun rules r => r.insert rules) [])

end Filter

namespace FilterReader

/-- The parts of a text between commas, without the empty ones. -/
def pieces (text : String) : List (List Char) :=
  (text.toList.splitOn ',').filter (!·.isEmpty)

/-- Reads directives; the first part that is not one decides about the error. -/
def ofPatterns (badPattern? : String → Option String) : FilterReader := fun text =>
  match (pieces text).mapM (Directive.parse badPattern?) with
  | .ok ds => .ok (.ofDirectives ds)
  | .error e => .error ⟨e.message⟩

/-- Directives in which every value is taken for a pattern. -/
def directives : FilterReader := ofPatterns fun _ => none

end FilterReader
end Log
end FaultCodec
