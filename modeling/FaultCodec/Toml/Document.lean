import FaultCodec.Toml.Scalar
import FaultCodec.Toml.Tree

/-!
# TOML documents

Values, statements and whole documents. Arrays and inline tables nest up to a fixed depth, which is
also the length that a key may have, so values are read by recursion on the depth that is left.
-/

namespace FaultCodec
namespace Toml

/-- How deep values nest and how many parts a key has at most. -/
def depthLimit : Nat := 79

/-- The parts of a key, of which there is at least one, with blanks around each. -/
def keyParts : Nat → Scan (List Key)
  | 0, _ => none
  | bound + 1, s => do
    let start := skipWs s
    let (name, rest) ← Scalar.word start
    let key : Key := ⟨name, .between start rest⟩
    match skipWs rest with
    | '.' :: more =>
      let (keys, rest) ← keyParts bound more
      some (key :: keys, rest)
    | rest => some ([key], rest)

/-- A key as the path to its last part and that part. -/
def key (s : List Char) : Option ((List Key × Key) × List Char) := do
  let (keys, rest) ← keyParts depthLimit s
  let last ← keys.getLast?
  some ((keys.dropLast, last), rest)

def keyValue (read : Scan Node) (s : List Char) :
    Option ((List Key × Key × Node) × List Char) := do
  let ((path, last), rest) ← key s
  let rest ← Scalar.expect '=' rest
  let (value, rest) ← read (skipWs rest)
  some ((path, last, value), rest)

/-- The elements of an array up to its end. The first argument bounds their number. -/
def elements (read : Scan Node) : Nat → Scan (List Node)
  | 0, _ => none
  | bound + 1, s =>
    match skipFiller false s with
    | ']' :: rest => some ([], rest)
    | start => do
      let (v, rest) ← read start
      match skipFiller false rest with
      | ',' :: more =>
        let (vs, rest) ← elements read bound more
        some (v :: vs, rest)
      | ']' :: more => some ([v], more)
      | _ => none

/-- The entries of an inline table up to its end, from the key of one on. -/
def inlineEntries (read : Scan Node) : Nat → Entries → Scan Entries
  | 0, _, _ => none
  | bound + 1, es, s => do
    let ((path, last, value), rest) ← keyValue read s
    let es ← es.add true path last value
    match skipWs rest with
    | ',' :: more => inlineEntries read bound es more
    | '}' :: more => some (es, more)
    | _ => none

def numberOrDate (s : List Char) : Option (Node × List Char) :=
  match Scalar.datetime s with
  | some rest => some (.datetime (.between s rest), rest)
  | none =>
    match Scalar.float s with
    | some (text, rest) => some (.float (.between s rest) text, rest)
    | none => do
      let (n, rest) ← Scalar.integer s
      some (.integer (.between s rest) n, rest)

/-- A value, of which the elements are read by `inner`. -/
def valueWith (inner : Scan Node) : Scan Node
  | '[' :: rest => do
    let (vs, more) ← elements inner (rest.length + 1) rest
    some (.array (.between ('[' :: rest) more) vs, more)
  | '{' :: rest =>
    match skipWs rest with
    | '}' :: more => some (.table (some (.between ('{' :: rest) more)) true .explicit [], more)
    | start => do
      let (es, more) ← inlineEntries inner (start.length + 1) [] start
      some (.table (some (.between ('{' :: rest) more)) true .explicit es, more)
  | 't' :: 'r' :: 'u' :: 'e' :: rest => some (.boolean ⟨rest.length + 4, rest.length⟩ true, rest)
  | 'f' :: 'a' :: 'l' :: 's' :: 'e' :: rest =>
    some (.boolean ⟨rest.length + 5, rest.length⟩ false, rest)
  | s =>
    match Scalar.text s with
    | some (text, rest) => some (.string (.between s rest) text, rest)
    | none => numberOrDate s

/-- A value that opens no array and no inline table beyond the given depth. -/
def value : Nat → Scan Node
  | 0 => fun s =>
    match s with
    | '[' :: _ => none
    | '{' :: _ => none
    | s => valueWith (fun _ => none) s
  | depth + 1 => valueWith (value depth)

def header (s : List Char) : Option (Statement × List Char) :=
  match s with
  | '[' :: '[' :: rest => do
    let ((path, last), rest) ← key rest
    let rest ← Scalar.expect ']' rest
    let rest ← Scalar.expect ']' rest
    some (.tablesHeader path last (.between s rest), ← endLine rest)
  | '[' :: rest => do
    let ((path, last), rest) ← key rest
    let rest ← Scalar.expect ']' rest
    some (.header path last (.between s rest), ← endLine rest)
  | _ => none

/-- The statements of a document. The first argument bounds their number. -/
def statements : Nat → List Char → Option (List Statement)
  | 0, _ => none
  | bound + 1, s =>
    match skipWs s with
    | [] => some []
    | '[' :: rest => do
      let (st, rest) ← header ('[' :: rest)
      some (st :: (← statements bound rest))
    | start =>
      match endLine start with
      | some rest => statements bound rest
      | none => do
        let ((path, last, v), rest) ← keyValue (value depthLimit) start
        let rest ← endLine rest
        some (.entry path last v :: (← statements bound rest))

/-- A mark of the byte order at the start does not count. -/
def skipMark : List Char → List Char
  | '\uFEFF' :: rest => rest
  | s => s

/-- The entries of a document, if its text follows the grammar and its statements the rules. -/
def document (text : List Char) : Option Entries := do
  let sts ← statements (text.length + 2) (skipMark text)
  build sts

end Toml
end FaultCodec
