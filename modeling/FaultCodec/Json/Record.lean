import FaultCodec.Json.Skip

/-!
# Typed JSON values

Readers for the values that records are made of, and for records themselves. A record may be written
as an object, whose members come in any order and may include unknown ones, or as a list of its
fields in their order. A draft of the record gathers the fields, and `finish` says whether it holds
all that have no default.
-/

namespace FaultCodec
namespace Json

/-- What stands next, for the text of a mismatch: a scalar is read, a list or an object is not. -/
def found (s : List UInt8) : Except Error (Found × List UInt8) :=
  match s with
  | Byte.lowerN :: rest => do return (.null, ← expectIdent (identTail "ull") rest)
  | Byte.lowerT :: rest => do return (.boolean true, ← expectIdent (identTail "rue") rest)
  | Byte.lowerF :: rest => do return (.boolean false, ← expectIdent (identTail "alse") rest)
  | Byte.quote :: rest => do
    let (text, rest) ← readString rest
    return (.string text, rest)
  | Byte.openBracket :: _ => .ok (.sequence, s)
  | Byte.openBrace :: _ => .ok (.map, s)
  | Byte.minus :: _ => do
    let (n, rest) ← Number.read s
    return (n.found, rest)
  | b :: _ =>
    if Byte.isDigit b then do
      let (n, rest) ← Number.read s
      return (n.found, rest)
    else failOn .expectedValue s
  | [] => failOn .expectedValue []

def refuse {α : Type} (expected : String) (s : List UInt8) : Except Error α := do
  let (what, rest) ← found s
  failAt (.mismatch (.wrongType what expected)) rest

def readText (s : List UInt8) : Except Error (String × List UInt8) :=
  match skipSpace s with
  | Byte.quote :: rest => readString rest
  | [] => failOn .endInValue []
  | rest => refuse "a string" rest

/-- A whole number of 64 bits; `expected` names what the number is for. -/
def readUnsigned (expected : String) (s : List UInt8) : Except Error (UInt64 × List UInt8) :=
  match skipSpace s with
  | [] => failOn .endInValue []
  | b :: rest =>
    if b = Byte.minus ∨ Byte.isDigit b = true then do
      match ← Number.read (b :: rest) with
      | (.natural n, more) => .ok (UInt64.ofNat n, more)
      | (.negative n, more) =>
        failAt (.mismatch (.wrongValue (Number.negative n).found expected)) more
      | (other, more) => failAt (.mismatch (.wrongType other.found expected)) more
    else refuse expected (b :: rest)

/-- The value of a name, or the problem that it is none of the known ones. -/
def choose {α : Type} (choices : List (String × α)) (name : String) : Except Problem α :=
  match choices.lookup name with
  | some a => .ok a
  | none => .error (.mismatch (.unknownChoice name (choices.map Prod.fst)))

def readNamed {α : Type} (choices : List (String × α)) (s : List UInt8) :
    Except Error (α × List UInt8) := do
  let (name, rest) ← readString s
  match choose choices name with
  | .ok a => .ok (a, rest)
  | .error p => failAt p rest

def readNull (s : List UInt8) : Except Error (List UInt8) :=
  match skipSpace s with
  | Byte.lowerN :: rest => expectIdent (identTail "ull") rest
  | [] => failOn .endInValue []
  | rest => refuse "unit" rest

/-- The only member of an object, from its name on, and the end of the object; its value is
`null`. -/
def readOnlyMember {α : Type} (choices : List (String × α)) (s : List UInt8) :
    Except Error (α × List UInt8) := do
  let (a, rest) ← readNamed choices s
  let rest ← expectColon rest
  let rest ← readNull rest
  match skipSpace rest with
  | Byte.closeBrace :: more => .ok (a, more)
  | [] => failAt .endInObject []
  | more => failAt .expectedValue more

/-- One of some names, as the only member of an object whose brace has been read. -/
def readWrapped {α : Type} (choices : List (String × α)) (s : List UInt8) :
    Except Error (α × List UInt8) :=
  match skipSpace s with
  | Byte.quote :: rest => readOnlyMember choices rest
  | Byte.closeBrace :: rest => failOn .expectedValue (Byte.closeBrace :: rest)
  | [] => failOn .endInObject []
  | rest => failOn .keyMustBeString rest

/-- One of some names, written as a string or as the only member of an object, with the value
`null`. -/
def readChoice {α : Type} (choices : List (String × α)) (s : List UInt8) :
    Except Error (α × List UInt8) :=
  match skipSpace s with
  | Byte.quote :: rest => readNamed choices rest
  | Byte.openBrace :: rest => readWrapped choices rest
  | [] => failOn .endInValue []
  | rest => failOn .expectedValue rest

def readOptional {α : Type} (read : Reader α) (s : List UInt8) :
    Except Error (Option α × List UInt8) :=
  match skipSpace s with
  | Byte.lowerN :: rest => do return (none, ← expectIdent (identTail "ull") rest)
  | rest => do
    let (a, rest) ← read rest
    return (some a, rest)

def into {α σ : Type} (read : Reader α) (put : α → σ) : Reader σ := fun s => do
  let (a, rest) ← read s
  return (put a, rest)

/-- A field of a record: its name, whether a draft holds it already, and how its value is read into
a draft. -/
structure Field (σ : Type) where
  name : String
  isSet : σ → Bool
  read : σ → Reader σ

/-- A record: what it is called in messages, its fields in order, the empty draft, and the record of
a draft, or the name of a field that the draft lacks. -/
structure Record (σ α : Type) where
  title : String
  fields : List (Field σ)
  blank : σ
  finish : σ → Except String α

namespace Record

variable {σ α : Type}

def listTitle (r : Record σ α) : String :=
  r.title ++ " with " ++ toString r.fields.length ++ " elements"

/-- Steps over the end of an object if it is next. -/
def passEnd (s : List UInt8) : List UInt8 :=
  match skipSpace s with
  | Byte.closeBrace :: rest => rest
  | rest => rest

/-- Reads the member of the given name into the draft; the name has been read, its colon has not. -/
def readMember (r : Record σ α) (draft : σ) (name : String) (s : List UInt8) :
    Except Error (σ × List UInt8) :=
  match r.fields.find? (·.name = name) with
  | none => do
    let value ← expectColon s
    let rest ← skipValue value
    return (draft, rest)
  | some field =>
    if field.isSet draft then failAt (.mismatch (.repeatedMember name)) (passEnd s)
    else do
      let value ← expectColon s
      field.read draft value

/-- The item that follows a comma; an end must not follow. -/
def passComma (close : UInt8) (s : List UInt8) : Except Error (List UInt8) :=
  match skipSpace s with
  | [] => failOn .endInValue []
  | b :: rest => if b = close then failOn .trailingComma (b :: rest) else .ok (b :: rest)

/-- Reads the members from the name of one on, up to the end of the object. The first argument
bounds their number. -/
def readMembers (r : Record σ α) : Nat → σ → List UInt8 → Except Error (σ × List UInt8)
  | 0, _, s => failOn .keyMustBeString s
  | bound + 1, draft, s =>
    match s with
    | Byte.quote :: rest => do
      let (name, rest) ← readString rest
      let (draft, rest) ← r.readMember draft name rest
      match skipSpace rest with
      | Byte.closeBrace :: more => .ok (draft, more)
      | Byte.comma :: more => do
        let next ← passComma Byte.closeBrace more
        r.readMembers bound draft next
      | [] => failOn .endInObject []
      | more => failOn .expectedObjectCommaOrEnd more
    | _ => failOn .keyMustBeString s

/-- The members after an opening brace, up to the end of the object. -/
def readObject (r : Record σ α) (s : List UInt8) : Except Error (σ × List UInt8) :=
  match skipSpace s with
  | Byte.closeBrace :: rest => .ok (r.blank, rest)
  | [] => failOn .endInObject []
  | rest => r.readMembers (rest.length + 1) r.blank rest

/-- Reads elements into the fields in their order, up to the end of the list or of the fields. -/
def readElements : List (Field σ) → Bool → σ → List UInt8 → Except Error (σ × List UInt8)
  | [], _, draft, s => .ok (draft, s)
  | field :: fields, first, draft, s =>
    match skipSpace s with
    | Byte.closeBracket :: rest => .ok (draft, Byte.closeBracket :: rest)
    | [] => failOn .endInList []
    | rest =>
      if first then do
        let (draft, rest) ← field.read draft rest
        readElements fields false draft rest
      else match rest with
        | Byte.comma :: more => do
          let next ← passComma Byte.closeBracket more
          let (draft, tail) ← field.read draft next
          readElements fields false draft tail
        | _ => failOn .expectedListCommaOrEnd rest

def endList (s : List UInt8) : Except Error (List UInt8) :=
  match skipSpace s with
  | Byte.closeBracket :: rest => .ok rest
  | Byte.comma :: rest =>
    match skipSpace rest with
    | Byte.closeBracket :: tail => failOn .trailingComma (Byte.closeBracket :: tail)
    | tail => failOn .trailingCharacters tail
  | [] => failOn .endInList []
  | rest => failOn .trailingCharacters rest

def read (r : Record σ α) (s : List UInt8) : Except Error (α × List UInt8) :=
  match skipSpace s with
  | Byte.openBrace :: rest => do
    let (draft, rest) ← r.readObject rest
    match r.finish draft with
    | .ok a => .ok (a, rest)
    | .error name => failAt (.mismatch (.missingMember name)) rest
  | Byte.openBracket :: rest => do
    let (draft, rest) ← readElements r.fields true r.blank rest
    let rest ← endList rest
    match r.finish draft with
    | .ok a => .ok (a, rest)
    | .error name =>
      failAt (.mismatch (.wrongLength (r.fields.findIdx (·.name = name)) r.listTitle)) rest
  | [] => failOn .endInValue []
  | rest => refuse r.title rest

end Record

/-- Reads one value from the whole of the bytes; only blanks may follow it. -/
def parse {α : Type} (read : Reader α) (input : List UInt8) : Except Error α := do
  let (a, rest) ← read input
  match skipSpace rest with
  | [] => .ok a
  | more => failOn .trailingCharacters more

end Json
end FaultCodec
