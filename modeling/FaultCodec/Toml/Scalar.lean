import FaultCodec.Decimal.Shortest
import FaultCodec.Text.Quoted

/-!
# TOML scalars

The written forms of keys, strings, numbers, dates and times. Every reader takes what it knows off
the front of the characters and gives the rest, or nothing where the form is not met.
-/

namespace FaultCodec
namespace Toml

/-- A reader that takes characters off the front. -/
abbrev Scan (α : Type) := List Char → Option (α × List Char)

def isWs (c : Char) : Bool := c = ' ' || c = '\t'

def skipWs (s : List Char) : List Char := s.dropWhile isWs

/-- A line feed, possibly after a carriage return. -/
def newline? : List Char → Option (List Char)
  | '\n' :: rest => some rest
  | '\r' :: '\n' :: rest => some rest
  | _ => none

/-- Tabs and all characters that are no control characters of ASCII. -/
def isPlain (c : Char) : Bool := c = '\t' || (0x20 ≤ c.toNat && c.toNat ≠ 0x7F)

def skipComment : List Char → List Char
  | '#' :: rest => rest.dropWhile isPlain
  | rest => rest

/-- The end of a line: blanks, possibly a comment, and a line break or the end of the document. -/
def endLine (s : List Char) : Option (List Char) :=
  match skipComment (skipWs s) with
  | [] => some []
  | rest => newline? rest

/-- Blanks, line breaks and comments, as they may stand between the elements of an array. -/
def skipFiller (inComment : Bool) : List Char → List Char
  | [] => []
  | '\n' :: rest => skipFiller false rest
  | '\r' :: '\n' :: rest => skipFiller false rest
  | c :: rest =>
    if inComment then if isPlain c then skipFiller true rest else c :: rest
    else if isWs c then skipFiller false rest
    else if c = '#' then skipFiller true rest
    else c :: rest

namespace Scalar

def hexDigit? (c : Char) : Option Nat :=
  if '0' ≤ c ∧ c ≤ '9' then some (c.toNat - 0x30)
  else if 'A' ≤ c ∧ c ≤ 'F' then some (c.toNat - 0x37)
  else if 'a' ≤ c ∧ c ≤ 'f' then some (c.toNat - 0x57)
  else none

def letterEscape? (c : Char) : Option Char :=
  match c with
  | 'b' => some '\x08'
  | 't' => some '\t'
  | 'n' => some '\n'
  | 'f' => some '\x0c'
  | 'r' => some '\r'
  | '"' => some '"'
  | '\\' => some '\\'
  | _ => none

inductive TextState where
  /-- After a line break that was escaped, blanks and line breaks are skipped. -/
  | plain (skipping : Bool)
  | escape
  /-- After a backslash and blanks, the line has to end. -/
  | escapedBlank
  | hex (missing value : Nat)
  deriving Repr, DecidableEq

/-- The character of a number, unless it is a surrogate or too large. -/
def char? (n : Nat) : Option Char := if n.isValidChar then some (Char.ofNat n) else none

def stepEscape (c : Char) : Option (Option Char × TextState) :=
  match letterEscape? c with
  | some d => some (some d, .plain false)
  | none =>
    if c = 'u' then some (none, .hex 4 0)
    else if c = 'U' then some (none, .hex 8 0)
    else none

def stepHex (missing value : Nat) (c : Char) : Option (Option Char × TextState) := do
  let value := value * 16 + (← hexDigit? c)
  if missing ≤ 1 then some (some (← char? value), .plain false)
  else some (none, .hex (missing - 1) value)

/-- The text after a quotation mark, up to the next one. -/
def basic (state : TextState) (gathered : List Char) : Scan String
  | [] => none
  | c :: rest =>
    match state with
    | .escape => do
      let (added, next) ← stepEscape c
      basic next (added.toList ++ gathered) rest
    | .hex missing value => do
      let (added, next) ← stepHex missing value c
      basic next (added.toList ++ gathered) rest
    | _ =>
      if c = '"' then some (String.ofList gathered.reverse, rest)
      else if c = '\\' then basic .escape gathered rest
      else if isPlain c then basic (.plain false) (c :: gathered) rest
      else none

/-- The end of a text of several lines: up to two of the marks after the first three belong to
it. -/
def closeLines (mark : Char) (gathered : List Char) (rest : List Char) : String × List Char :=
  match rest with
  | a :: b :: more =>
    if a = mark then
      if b = mark then (String.ofList (mark :: mark :: gathered).reverse, more)
      else (String.ofList (mark :: gathered).reverse, b :: more)
    else (String.ofList gathered.reverse, rest)
  | [a] =>
    if a = mark then (String.ofList (mark :: gathered).reverse, [])
    else (String.ofList gathered.reverse, rest)
  | [] => (String.ofList gathered.reverse, [])

/-- The text after three quotation marks, up to the next three. -/
def basicLines (state : TextState) (gathered : List Char) : Scan String
  | [] => none
  | '"' :: '"' :: '"' :: rest =>
    match state with
    | .plain _ => some (closeLines '"' gathered rest)
    | .escape => basicLines (.plain false) ('"' :: gathered) ('"' :: '"' :: rest)
    | _ => none
  | '\r' :: '\n' :: rest =>
    match state with
    | .plain false => basicLines (.plain false) ('\n' :: gathered) rest
    | .hex _ _ => none
    | _ => basicLines (.plain true) gathered rest
  | c :: rest =>
    match state with
    | .plain skipping =>
      if c = '\\' then basicLines .escape gathered rest
      else if c = '\n' then
        basicLines (.plain skipping) (if skipping then gathered else c :: gathered) rest
      else if isPlain c then
        if skipping && isWs c then basicLines (.plain true) gathered rest
        else basicLines (.plain false) (c :: gathered) rest
      else none
    | .escape =>
      if c = '\n' then basicLines (.plain true) gathered rest
      else if isWs c then basicLines .escapedBlank gathered rest
      else do
        let (added, next) ← stepEscape c
        basicLines next (added.toList ++ gathered) rest
    | .escapedBlank =>
      if c = '\n' then basicLines (.plain true) gathered rest
      else if isWs c then basicLines .escapedBlank gathered rest
      else none
    | .hex missing value => do
      let (added, next) ← stepHex missing value c
      basicLines next (added.toList ++ gathered) rest

def literal (gathered : List Char) : Scan String
  | [] => none
  | c :: rest =>
    if c = '\'' then some (String.ofList gathered.reverse, rest)
    else if isPlain c then literal (c :: gathered) rest
    else none

def literalLines (gathered : List Char) : Scan String
  | [] => none
  | '\'' :: '\'' :: '\'' :: rest => some (closeLines '\'' gathered rest)
  | '\r' :: '\n' :: rest => literalLines ('\n' :: gathered) rest
  | c :: rest => if c = '\n' || isPlain c then literalLines (c :: gathered) rest else none

/-- A line break right after the opening marks does not count. -/
def skipFirstBreak (s : List Char) : List Char := (newline? s).getD s

/-- A string in any of the four quotations. -/
def text : Scan String
  | '"' :: '"' :: '"' :: rest => basicLines (.plain false) [] (skipFirstBreak rest)
  | '"' :: rest => basic (.plain false) [] rest
  | '\'' :: '\'' :: '\'' :: rest => literalLines [] (skipFirstBreak rest)
  | '\'' :: rest => literal [] rest
  | _ => none

def isBare (c : Char) : Bool := c.isAlphanum || c = '_' || c = '-'

/-- One part of a key: a bare word or a string of one line. -/
def word : Scan String
  | '"' :: rest => basic (.plain false) [] rest
  | '\'' :: rest => literal [] rest
  | s =>
    match s.takeWhile isBare with
    | [] => none
    | name => some (String.ofList name, s.dropWhile isBare)

/-- Digits, between which single underscores may stand; they are left out. -/
def moreDigits (isDigit : Char → Bool) : List Char → List Char × List Char
  | [] => ([], [])
  | '_' :: c :: rest =>
    if isDigit c then
      let (ds, more) := moreDigits isDigit rest
      (c :: ds, more)
    else ([], '_' :: c :: rest)
  | c :: rest =>
    if isDigit c then
      let (ds, more) := moreDigits isDigit rest
      (c :: ds, more)
    else ([], c :: rest)

def digits (isDigit : Char → Bool) : Scan (List Char)
  | c :: rest =>
    if isDigit c then
      let (ds, more) := moreDigits isDigit rest
      some (c :: ds, more)
    else none
  | [] => none

/-- A sign, if there is one; whether it is a minus. -/
def sign : List Char → Bool × List Char
  | '+' :: rest => (false, rest)
  | '-' :: rest => (true, rest)
  | rest => (false, rest)

/-- The digits of a decimal number: a single zero, or none in front. -/
def decimalDigits : Scan (List Char)
  | '0' :: rest => some (['0'], rest)
  | s => digits Char.isDigit s

def value (base : Nat) (ds : List Char) : Nat :=
  ds.foldl (fun n c => n * base + (hexDigit? c).getD 0) 0

/-- Whole numbers have 64 bits. -/
def inRange (n : Int) : Option Int :=
  if -(Decimal.twoTo 63 : Int) ≤ n ∧ n < Decimal.twoTo 63 then some n else none

def based (base : Nat) (isDigit : Char → Bool) (s : List Char) : Option (Int × List Char) := do
  let (ds, rest) ← digits isDigit s
  some (← inRange (value base ds), rest)

def integer : Scan Int
  | '0' :: 'x' :: rest => based 16 (fun c => (hexDigit? c).isSome) rest
  | '0' :: 'o' :: rest => based 8 (fun c => '0' ≤ c && c ≤ '7') rest
  | '0' :: 'b' :: rest => based 2 (fun c => c = '0' || c = '1') rest
  | s => do
    let (below, s) := sign s
    let (ds, rest) ← decimalDigits s
    let n : Int := value 10 ds
    some (← inRange (if below then -n else n), rest)

def exponent? : Scan Int
  | c :: rest =>
    if c = 'e' || c = 'E' then do
      let (below, s) := sign rest
      let (ds, rest) ← digits Char.isDigit s
      let n : Int := value 10 ds
      some (if below then -n else n, rest)
    else none
  | [] => none

/-- The text of `n * 10 ^ e`. Too large a number is infinite, which only a negative one may be. -/
def floatText? (below : Bool) (n : Nat) (e : Int) : Option String :=
  let order : Int := (Nat.toDigits 10 n).length + e
  let x? := if n = 0 ∨ order < -330 then some Decimal.Double.zero
    else if 310 < order then none
    else if 0 ≤ e then Decimal.Double.round? (n * Decimal.tenTo e.toNat) 1
    else Decimal.Double.round? n (Decimal.tenTo (-e).toNat)
  match x? with
  | some x => some (Decimal.Layout.plain.text below x)
  | none => if below then some "-inf" else none

/-- A number with a fraction or an exponent. -/
def finite (s : List Char) : Option (String × List Char) := do
  let (below, s) := sign s
  let (whole, rest) ← decimalDigits s
  match rest with
  | '.' :: more =>
    let (fraction, rest) ← digits Char.isDigit more
    let n := value 10 (whole ++ fraction)
    let places : Int := fraction.length
    match exponent? rest with
    | some (e, rest) => some (← floatText? below n (e - places), rest)
    | none => some (← floatText? below n (-places), rest)
  | _ =>
    let (e, rest) ← exponent? rest
    some (← floatText? below (value 10 whole) e, rest)

/-- Infinity, or what is not a number; the latter has no sign. -/
def special (s : List Char) : Option (String × List Char) :=
  match sign s with
  | (below, 'i' :: 'n' :: 'f' :: rest) => some (if below then "-inf" else "inf", rest)
  | (_, 'n' :: 'a' :: 'n' :: rest) => some ("NaN", rest)
  | _ => none

def float (s : List Char) : Option (String × List Char) := (finite s).orElse fun _ => special s

/-- A number of `count` digits, from `least` to `most`. -/
def fixed (count least most : Nat) (s : List Char) : Option (Nat × List Char) :=
  let ds := s.take count
  if ds.length = count ∧ ds.all Char.isDigit = true then
    let n := value 10 ds
    if least ≤ n ∧ n ≤ most then some (n, s.drop count) else none
  else none

def expect (c : Char) : List Char → Option (List Char)
  | d :: rest => if d = c then some rest else none
  | [] => none

def daysIn (year month : Nat) : Nat :=
  if month = 2 then if year % 4 = 0 ∧ (year % 100 ≠ 0 ∨ year % 400 = 0) then 29 else 28
  else if month = 4 ∨ month = 6 ∨ month = 9 ∨ month = 11 then 30
  else 31

def date (s : List Char) : Option (List Char) := do
  let (year, s) ← fixed 4 0 9999 s
  let (month, s) ← fixed 2 1 12 (← expect '-' s)
  let (day, s) ← fixed 2 1 31 (← expect '-' s)
  if day ≤ daysIn year month then some s else none

def skipFraction : List Char → List Char
  | '.' :: c :: rest => if c.isDigit then rest.dropWhile Char.isDigit else '.' :: c :: rest
  | rest => rest

/-- A time of day; the last second may be a leap second. -/
def time (s : List Char) : Option (List Char) := do
  let (_, s) ← fixed 2 0 23 s
  let (_, s) ← fixed 2 0 59 (← expect ':' s)
  let (_, s) ← fixed 2 0 60 (← expect ':' s)
  some (skipFraction s)

/-- The distance to UTC, if there is one. -/
def skipOffset (s : List Char) : List Char :=
  match s with
  | 'Z' :: rest => rest
  | 'z' :: rest => rest
  | c :: rest =>
    if c = '+' || c = '-' then
      let offset? := do
        let (_, s) ← fixed 2 0 23 rest
        let (_, s) ← fixed 2 0 59 (← expect ':' s)
        some s
      offset?.getD s
    else s
  | [] => []

def skipTime (s : List Char) : List Char :=
  match s with
  | c :: rest =>
    if c = 'T' || c = 't' || c = ' ' then ((time rest).map skipOffset).getD s else s
  | [] => []

def datetime (s : List Char) : Option (List Char) :=
  ((date s).map skipTime).orElse fun _ => time s

end Scalar
end Toml
end FaultCodec
