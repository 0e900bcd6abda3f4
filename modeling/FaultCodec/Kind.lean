import FaultCodec.Code
import FaultCodec.Text.Quoted

/-!
# Kinds of faults

The closed set of kinds, of which one carries a reason. Several kinds share a status code; a tag
names the kind beside the code, so that the two together tell all kinds apart.
-/

namespace FaultCodec

inductive Kind where
  | internal
  | badRequest
  | requiresProxyRequest (reason : String)
  | rateLimited
  | disabled
  | unimplemented
  | unprocessableEntity
  | conflict
  | tooManyRequests
  deriving Repr, DecidableEq

/-- The name of a kind without its reason. -/
inductive Tag where
  | internal
  | badRequest
  | requiresProxyRequest
  | rateLimited
  | disabled
  | unimplemented
  | unprocessableEntity
  | conflict
  | tooManyRequests
  deriving Repr, DecidableEq

namespace Tag

def all : List Tag := [
  internal, badRequest, requiresProxyRequest, rateLimited, disabled, unimplemented,
  unprocessableEntity, conflict, tooManyRequests]

/-- The stable text of a tag on the wire. -/
def text : Tag → String
  | internal => "INTERNAL"
  | badRequest => "BAD_REQUEST"
  | requiresProxyRequest => "REQUIRES_PROXY_REQUEST"
  | rateLimited => "RATE_LIMITED"
  | disabled => "DISABLED"
  | unimplemented => "UNIMPLEMENTED"
  | unprocessableEntity => "UNPROCESSABLE_ENTITY"
  | conflict => "CONFLICT"
  | tooManyRequests => "TOO_MANY_REQUESTS"

def name : Tag → String
  | internal => "Internal"
  | badRequest => "BadRequest"
  | requiresProxyRequest => "RequiresProxyRequest"
  | rateLimited => "RateLimited"
  | disabled => "Disabled"
  | unimplemented => "Unimplemented"
  | unprocessableEntity => "UnprocessableEntity"
  | conflict => "Conflict"
  | tooManyRequests => "TooManyRequests"

/-- The kind that a tag names; the reason is kept by the one kind that carries a reason. -/
def kind (reason : String) : Tag → Kind
  | internal => .internal
  | badRequest => .badRequest
  | requiresProxyRequest => .requiresProxyRequest reason
  | rateLimited => .rateLimited
  | disabled => .disabled
  | unimplemented => .unimplemented
  | unprocessableEntity => .unprocessableEntity
  | conflict => .conflict
  | tooManyRequests => .tooManyRequests

end Tag

namespace Kind

def code : Kind → Code
  | internal => .internal
  | badRequest => .invalidArgument
  | requiresProxyRequest _ => .notFound
  | rateLimited => .resourceExhausted
  | disabled => .unavailable
  | unimplemented => .unimplemented
  | unprocessableEntity => .invalidArgument
  | conflict => .aborted
  | tooManyRequests => .resourceExhausted

def tag : Kind → Tag
  | internal => .internal
  | badRequest => .badRequest
  | requiresProxyRequest _ => .requiresProxyRequest
  | rateLimited => .rateLimited
  | disabled => .disabled
  | unimplemented => .unimplemented
  | unprocessableEntity => .unprocessableEntity
  | conflict => .conflict
  | tooManyRequests => .tooManyRequests

def name (k : Kind) : String := k.tag.name

def reason? : Kind → Option String
  | requiresProxyRequest reason => some reason
  | _ => none

def inspect : Kind → String
  | requiresProxyRequest reason =>
    "RequiresProxyRequest \x7b reason: " ++ Text.quote reason ++ " \x7d"
  | k => k.name

/-- Kinds that ask the caller to back off. -/
def isRateLimited : Kind → Bool
  | rateLimited => true
  | tooManyRequests => true
  | _ => false

/-- Kinds that the caller's input is to blame for. -/
def isClientError : Kind → Bool
  | badRequest => true
  | unprocessableEntity => true
  | conflict => true
  | _ => false

@[simp] theorem kind_tag (k : Kind) : k.tag.kind (k.reason?.getD "") = k := by
  cases k <;> rfl

end Kind

namespace Tag

def code (t : Tag) : Code := (t.kind "").code

@[simp] theorem tag_kind (t : Tag) (reason : String) : (t.kind reason).tag = t := by
  cases t <;> rfl

@[simp] theorem code_kind (t : Tag) (reason : String) : (t.kind reason).code = t.code := by
  cases t <;> rfl

end Tag

/-- The tags that a status with the given code may carry; none for a code that no kind uses. -/
def Code.tags : Code → List Tag
  | .internal => [.internal]
  | .invalidArgument => [.badRequest, .unprocessableEntity]
  | .notFound => [.requiresProxyRequest]
  | .resourceExhausted => [.rateLimited, .tooManyRequests]
  | .unavailable => [.disabled]
  | .unimplemented => [.unimplemented]
  | .aborted => [.conflict]
  | _ => []

theorem Code.mem_tags_iff (c : Code) (t : Tag) : t ∈ c.tags ↔ t.code = c := by
  cases c <;> cases t <;> decide

end FaultCodec
