import FaultCodec.Json.Byte
import FaultCodec.Text.Utf8

/-!
# JSON documents and their spellings

A document is a tree: the items of lists and the members of objects keep their order, and members
may repeat. It has many spellings as bytes. Blanks may stand around every token, a character of a
string may stand for itself or be written as one of its escapes, and a number is kept as it is
written. Spellings are described from the outside, without any reader or writer.
-/

namespace FaultCodec
namespace Json

open Text

/-- Blank bytes, or none at all. -/
def Blank (s : List UInt8) : Prop := ∀ b ∈ s, Byte.isSpace b = true

instance (s : List UInt8) : Decidable (Blank s) :=
  List.decidableBAll (fun b => Byte.isSpace b = true) s

/-- The characters that have an escape of their own, behind its letter. -/
def shortEscapes : List (UInt8 × Char) := [
  (Byte.quote, '"'), (Byte.backslash, '\\'), (Byte.slash, '/'), (Byte.lowerB, '\x08'),
  (Byte.lowerF, '\x0c'), (Byte.lowerN, '\n'), (Byte.lowerR, '\r'), (Byte.lowerT, '\t')]

/-- Four hexadecimal digits, in either case, and their value. -/
inductive SpellsUnit : Nat → List UInt8 → Prop
  | digits {a b c d : UInt8} {i j k l : Nat} (ha : Byte.hexDigit? a = some i)
      (hb : Byte.hexDigit? b = some j) (hc : Byte.hexDigit? c = some k)
      (hd : Byte.hexDigit? d = some l) :
      SpellsUnit (((i * 16 + j) * 16 + k) * 16 + l) [a, b, c, d]

/-- A character between quotes. One outside the first plane has an escape as two surrogates. -/
inductive SpellsChar : Char → List UInt8 → Prop
  | plain {c : Char} (hc : 0x20 ≤ c.toNat) (hq : c ≠ '"') (hb : c ≠ '\\') :
      SpellsChar c (Utf8.encodeChar c)
  | short {b : UInt8} {c : Char} (h : (b, c) ∈ shortEscapes) : SpellsChar c [Byte.backslash, b]
  | unit {c : Char} {digits : List UInt8} (h : SpellsUnit c.toNat digits) :
      SpellsChar c (Byte.backslash :: Byte.lowerU :: digits)
  | pair {c : Char} {high low : Nat} {first second : List UInt8} (hhigh : high < 0x400)
      (hlow : low < 0x400) (hc : c.toNat = 0x10000 + high * 0x400 + low)
      (hfirst : SpellsUnit (0xD800 + high) first) (hsecond : SpellsUnit (0xDC00 + low) second) :
      SpellsChar c
        (Byte.backslash :: Byte.lowerU :: (first ++ Byte.backslash :: Byte.lowerU :: second))

/-- The characters of a string, without its quotes. -/
inductive SpellsText : List Char → List UInt8 → Prop
  | nil : SpellsText [] []
  | cons {c : Char} {cs : List Char} {first rest : List UInt8} (hfirst : SpellsChar c first)
      (hrest : SpellsText cs rest) : SpellsText (c :: cs) (first ++ rest)

/-- One decimal digit or more. -/
inductive IsDigits : List UInt8 → Prop
  | digits {b : UInt8} {more : List UInt8} (hb : Byte.isDigit b = true)
      (hmore : ∀ c ∈ more, Byte.isDigit c = true) : IsDigits (b :: more)

/-- A whole part has no zeros in front. -/
inductive IsWhole : List UInt8 → Prop
  | zero : IsWhole [Byte.zero]
  | digits {b : UInt8} {more : List UInt8} (hb : b ≠ Byte.zero) (h : IsDigits (b :: more)) :
      IsWhole (b :: more)

/-- A fraction with its point, or none. -/
inductive IsFraction : List UInt8 → Prop
  | none : IsFraction []
  | some {ds : List UInt8} (h : IsDigits ds) : IsFraction (Byte.point :: ds)

inductive IsSign : List UInt8 → Prop
  | none : IsSign []
  | plus : IsSign [Byte.plus]
  | minus : IsSign [Byte.minus]

/-- An exponent with its letter, or none. -/
inductive IsExponent : List UInt8 → Prop
  | none : IsExponent []
  | some {e : UInt8} {sign ds : List UInt8} (he : e = Byte.lowerE ∨ e = Byte.upperE)
      (hsign : IsSign sign) (h : IsDigits ds) : IsExponent (e :: (sign ++ ds))

/-- A number as it is written. -/
structure Numeral where
  negative : Bool
  whole : List UInt8
  fraction : List UInt8
  exponent : List UInt8
  isWhole : IsWhole whole
  isFraction : IsFraction fraction
  isExponent : IsExponent exponent

def Numeral.text (n : Numeral) : List UInt8 :=
  (if n.negative then [Byte.minus] else []) ++ (n.whole ++ (n.fraction ++ n.exponent))

inductive Document where
  | null
  | boolean (b : Bool)
  | number (n : Numeral)
  | string (s : String)
  | list (items : List Document)
  | object (members : List (String × Document))

namespace Document

/-- The parts of a document that have spellings: a value, some items of a list or what stands behind
an item, and the same for members. -/
inductive Part where
  | value (v : Document)
  | items (vs : List Document)
  | behindItem (vs : List Document)
  | member (m : String × Document)
  | members (ms : List (String × Document))
  | behindMember (ms : List (String × Document))

/-- A value is spelled without blanks around it, members and items with those that stand there. -/
inductive Spells : Part → List UInt8 → Prop
  | null : Spells (.value .null) (Utf8.bytes "null")
  | boolean (b : Bool) : Spells (.value (.boolean b)) (Utf8.bytes (if b then "true" else "false"))
  | number (n : Numeral) : Spells (.value (.number n)) n.text
  | string {s : String} {text : List UInt8} (h : SpellsText s.toList text) :
      Spells (.value (.string s)) (Byte.quote :: (text ++ [Byte.quote]))
  | emptyList {space : List UInt8} (h : Blank space) :
      Spells (.value (.list [])) (Byte.openBracket :: (space ++ [Byte.closeBracket]))
  | list {vs : List Document} {text : List UInt8} (h : Spells (.items vs) text) :
      Spells (.value (.list vs)) (Byte.openBracket :: (text ++ [Byte.closeBracket]))
  | emptyObject {space : List UInt8} (h : Blank space) :
      Spells (.value (.object [])) (Byte.openBrace :: (space ++ [Byte.closeBrace]))
  | object {ms : List (String × Document)} {text : List UInt8} (h : Spells (.members ms) text) :
      Spells (.value (.object ms)) (Byte.openBrace :: (text ++ [Byte.closeBrace]))
  | items {v : Document} {vs : List Document} {space text more : List UInt8} (hspace : Blank space)
      (hv : Spells (.value v) text) (hvs : Spells (.behindItem vs) more) :
      Spells (.items (v :: vs)) (space ++ (text ++ more))
  | lastItem {space : List UInt8} (h : Blank space) : Spells (.behindItem []) space
  | nextItem {vs : List Document} {space text : List UInt8} (hspace : Blank space)
      (h : Spells (.items vs) text) : Spells (.behindItem vs) (space ++ Byte.comma :: text)
  | member {name : String} {v : Document} {key before after text : List UInt8}
      (hkey : SpellsText name.toList key) (hbefore : Blank before) (hafter : Blank after)
      (hv : Spells (.value v) text) :
      Spells (.member (name, v))
        (Byte.quote :: (key ++ Byte.quote :: (before ++ Byte.colon :: (after ++ text))))
  | members {m : String × Document} {ms : List (String × Document)}
      {space text more : List UInt8} (hspace : Blank space) (hm : Spells (.member m) text)
      (hms : Spells (.behindMember ms) more) :
      Spells (.members (m :: ms)) (space ++ (text ++ more))
  | lastMember {space : List UInt8} (h : Blank space) : Spells (.behindMember []) space
  | nextMember {ms : List (String × Document)} {space text : List UInt8} (hspace : Blank space)
      (h : Spells (.members ms) text) :
      Spells (.behindMember ms) (space ++ Byte.comma :: text)

/-- The bytes are the document, with blanks around it. -/
def Spelled (v : Document) (bytes : List UInt8) : Prop :=
  ∃ before text after, Blank before ∧ Spells (.value v) text ∧ Blank after ∧
    bytes = before ++ (text ++ after)

/-- The values of a name among some members. -/
def named (name : String) (ms : List (String × Document)) : List Document :=
  ms.filterMap fun m => if m.1 = name then some m.2 else none

@[simp] theorem named_nil (name : String) : named name [] = [] := rfl

@[simp] theorem named_cons_self (name : String) (v : Document) (ms : List (String × Document)) :
    named name ((name, v) :: ms) = v :: named name ms := by
  simp [named]

theorem named_cons_of_ne {other name : String} (h : other ≠ name) (v : Document)
    (ms : List (String × Document)) : named name ((other, v) :: ms) = named name ms := by
  simp [named, h]

end Document
end Json
end FaultCodec
