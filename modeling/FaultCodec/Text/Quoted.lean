import FaultCodec.Text.Hidden

/-!
# Quoted text

The form in which a value shows a text that it holds: between double quotes, with backslash escapes
for the quote, the backslash and the four control characters that have a short escape, and with
`\u{hex}` for every other character that has no visible form of its own.
-/

namespace FaultCodec
namespace Text

def hexDigits (n : Nat) : List Char := Nat.toDigits 16 n

namespace Quoted

/-- One character of a quoted text. -/
def encodeChar (c : Char) : List Char :=
  if c = '\x00' then ['\\', '0']
  else if c = '\t' then ['\\', 't']
  else if c = '\r' then ['\\', 'r']
  else if c = '\n' then ['\\', 'n']
  else if c = '"' then ['\\', '"']
  else if c = '\\' then ['\\', '\\']
  else if isHidden c then ['\\', 'u', '\x7b'] ++ hexDigits c.toNat ++ ['\x7d']
  else [c]

def encode (cs : List Char) : List Char := cs.flatMap encodeChar

end Quoted

/-- A text between double quotes. -/
def quote (s : String) : String := "\"" ++ String.ofList (Quoted.encode s.toList) ++ "\""

def joinWith (sep : String) : List String → String
  | [] => ""
  | [s] => s
  | s :: t :: rest => s ++ sep ++ joinWith sep (t :: rest)

/-- A list of quoted texts in square brackets. -/
def quoteList (ss : List String) : String := "[" ++ joinWith ", " (ss.map quote) ++ "]"

@[simp] theorem joinWith_nil (sep : String) : joinWith sep [] = "" := rfl

@[simp] theorem joinWith_singleton (sep s : String) : joinWith sep [s] = s := rfl

theorem joinWith_cons_cons (sep s t : String) (rest : List String) :
    joinWith sep (s :: t :: rest) = s ++ sep ++ joinWith sep (t :: rest) := rfl

end Text
end FaultCodec
