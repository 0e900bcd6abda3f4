import FaultCodec.Text.Utf8
import FaultCodec.Toml.Node

/-!
# Diagnostics

A document that is TOML may still hold the wrong values. The error keeps its cause and, once it is
known, the span of the value that is to blame. It is shown with the line of the document in which
the span starts, and with marks under the part of the line that the span covers.
-/

namespace FaultCodec
namespace Toml

/-- Why the values of a document are not what is asked for. -/
inductive Problem where
  | mismatch (m : Mismatch)
  | wantedStringOrTable
  | wantedOneFoundNone
  | wantedOneFoundMore
  | expectedEmptyArray
  | expectedEmptyTable
  | expectedTable (typeName : String)
  deriving Repr, DecidableEq

def Problem.message : Problem → String
  | .mismatch m => m.message
  | .wantedStringOrTable => "wanted string or table"
  | .wantedOneFoundNone => "wanted exactly 1 element, found 0 elements"
  | .wantedOneFoundMore => "wanted exactly 1 element, more than 1 element"
  | .expectedEmptyArray => "expected empty array"
  | .expectedEmptyTable => "expected empty table"
  | .expectedTable typeName => "expected table, found " ++ typeName

structure Error where
  problem : Problem
  span : Option Span := none
  deriving Repr, DecidableEq

namespace Span

def before (text : List Char) (s : Span) : List Char := text.take (text.length - s.atStart)

def covered (text : List Char) (s : Span) : List Char :=
  (text.drop (text.length - s.atStart)).take (s.atStart - s.atEnd)

/-- The line in which a span starts, counted from zero. -/
def line (text : List Char) (s : Span) : Nat := (s.before text).count '\n'

def column (text : List Char) (s : Span) : Nat :=
  ((s.before text).reverse.takeWhile (· ≠ '\n')).length

def content (text : List Char) (s : Span) : List Char :=
  ((text.splitOn '\n')[s.line text]?).getD []

/-- How many marks are drawn: one for each byte of the span, but not past the end of the line, and
never none. -/
def marks (text : List Char) (s : Span) : Nat :=
  let room := (Text.Utf8.encode (s.content text)).length - s.column text
  max 1 (min (Text.Utf8.encode (s.covered text)).length room)

end Span

namespace Error

/-- The error at a place, unless it already has one of its own. -/
def within (place : Option Span) (e : Error) : Error := { e with span := e.span.or place }

def blanks (n : Nat) : String := String.ofList (List.replicate n ' ')

/-- The line of the document with the marks under it. -/
def excerpt (text : List Char) (s : Span) : String :=
  let number := toString (s.line text + 1)
  let gutter := blanks (number.length + 1) ++ "|"
  let marks := String.ofList (List.replicate (s.marks text) '^')
  "TOML parse error at line " ++ number ++ ", column " ++ toString (s.column text + 1) ++ "\n" ++
    gutter ++ "\n" ++
    number ++ " | " ++ String.ofList (s.content text) ++ "\n" ++
    gutter ++ blanks (s.column text + 1) ++ marks ++ "\n"

def message (text : List Char) (e : Error) : String :=
  e.span.elim "" (excerpt text) ++ e.problem.message ++ "\n"

end Error
end Toml
end FaultCodec
