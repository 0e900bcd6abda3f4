import FaultCodec.Settings.Override
import FaultCodec.Settings.Toml

/-!
# Loading settings

Settings come from a file or, where no file is asked for, from the defaults; the environment is laid
over them in both cases. The content of a file is given as its bytes, or not at all if it cannot be
read. A file that is not text counts as one that is not there.
-/

namespace FaultCodec

inductive Source where
  | standard
  | file (path : String) (content : Option (List UInt8))
  deriving Repr, DecidableEq

inductive LoadError where
  | notFound (path : String)
  | parse (text : String) (e : ParseError)
  deriving Repr, DecidableEq

def LoadError.message? : LoadError → Option String
  | .notFound path => some ("config file not found: " ++ path)
  | .parse text e => e.message? text

namespace Source

/-- The settings of a source, without the environment. -/
def read : Source → Except LoadError Settings
  | standard => .ok Settings.standard
  | file path content =>
    match content.bind Text.Utf8.text? with
    | none => .error (.notFound path)
    | some text =>
      match Settings.ofToml text with
      | .ok s => .ok s
      | .error e => .error (.parse text e)

def load (source : Source) (env : Environment) : Except LoadError Settings :=
  source.read.map (·.under env)

end Source
end FaultCodec
