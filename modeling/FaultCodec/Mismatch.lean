import FaultCodec.Text.Quoted

/-!
# Documents that do not fit

A document may be well formed and still not describe the value that is asked for. The causes are the
same whatever the format of the document; each format adds its own way to point at the place.
-/

namespace FaultCodec

/-- What a document holds in a place; floating point numbers are kept as their text. -/
inductive Found where
  | null
  | boolean (b : Bool)
  | integer (n : Int)
  | float (text : String)
  | string (s : String)
  | sequence
  | map
  deriving Repr, DecidableEq

def Found.describe : Found → String
  | .null => "null"
  | .boolean b => "boolean `" ++ (if b then "true" else "false") ++ "`"
  | .integer n => "integer `" ++ toString n ++ "`"
  | .float text => "floating point `" ++ text ++ "`"
  | .string s => "string " ++ Text.quote s
  | .sequence => "sequence"
  | .map => "map"

/-- Why a well-formed document does not describe a value. -/
inductive Mismatch where
  | wrongType (found : Found) (expected : String)
  | wrongValue (found : Found) (expected : String)
  | wrongLength (length : Nat) (expected : String)
  | unknownChoice (name : String) (choices : List String)
  | missingMember (name : String)
  | repeatedMember (name : String)
  deriving Repr, DecidableEq

namespace Mismatch

def ticked (name : String) : String := "`" ++ name ++ "`"

/-- Two choices are joined by "or", more are listed. -/
def choiceList : List String → String
  | [] => "there are no variants"
  | [a] => "expected " ++ ticked a
  | [a, b] => "expected " ++ ticked a ++ " or " ++ ticked b
  | more => "expected one of " ++ Text.joinWith ", " (more.map ticked)

def message : Mismatch → String
  | .wrongType found expected => "invalid type: " ++ found.describe ++ ", expected " ++ expected
  | .wrongValue found expected => "invalid value: " ++ found.describe ++ ", expected " ++ expected
  | .wrongLength length expected =>
    "invalid length " ++ toString length ++ ", expected " ++ expected
  | .unknownChoice name choices => "unknown variant " ++ ticked name ++ ", " ++ choiceList choices
  | .missingMember name => "missing field " ++ ticked name
  | .repeatedMember name => "duplicate field " ++ ticked name

end Mismatch
end FaultCodec
