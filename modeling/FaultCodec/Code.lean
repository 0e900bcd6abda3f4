/-!
# Status codes

The closed space of codes that a status carries. A code has a number on the wire, a canonical name
and a label, which differ for success only. Every other number reads as `unknown`.
-/

namespace FaultCodec

inductive Code where
  | ok
  | cancelled
  | unknown
  | invalidArgument
  | deadlineExceeded
  | notFound
  | alreadyExists
  | permissionDenied
  | resourceExhausted
  | failedPrecondition
  | aborted
  | outOfRange
  | unimplemented
  | internal
  | unavailable
  | dataLoss
  | unauthenticated
  deriving Repr, DecidableEq

namespace Code

/-- The codes in the order of their numbers. -/
def all : List Code := [
  ok, cancelled, unknown, invalidArgument, deadlineExceeded, notFound, alreadyExists,
  permissionDenied, resourceExhausted, failedPrecondition, aborted, outOfRange, unimplemented,
  internal, unavailable, dataLoss, unauthenticated]

def number : Code → Nat
  | ok => 0
  | cancelled => 1
  | unknown => 2
  | invalidArgument => 3
  | deadlineExceeded => 4
  | notFound => 5
  | alreadyExists => 6
  | permissionDenied => 7
  | resourceExhausted => 8
  | failedPrecondition => 9
  | aborted => 10
  | outOfRange => 11
  | unimplemented => 12
  | internal => 13
  | unavailable => 14
  | dataLoss => 15
  | unauthenticated => 16

/-- The code of a number; `unknown` for a number outside the space. -/
def ofNumber : Int → Code
  | 0 => ok
  | 1 => cancelled
  | 2 => unknown
  | 3 => invalidArgument
  | 4 => deadlineExceeded
  | 5 => notFound
  | 6 => alreadyExists
  | 7 => permissionDenied
  | 8 => resourceExhausted
  | 9 => failedPrecondition
  | 10 => aborted
  | 11 => outOfRange
  | 12 => unimplemented
  | 13 => internal
  | 14 => unavailable
  | 15 => dataLoss
  | 16 => unauthenticated
  | _ => unknown

/-- The canonical name, used in messages and in JSON. -/
def name : Code → String
  | ok => "OK"
  | cancelled => "Cancelled"
  | unknown => "Unknown"
  | invalidArgument => "InvalidArgument"
  | deadlineExceeded => "DeadlineExceeded"
  | notFound => "NotFound"
  | alreadyExists => "AlreadyExists"
  | permissionDenied => "PermissionDenied"
  | resourceExhausted => "ResourceExhausted"
  | failedPrecondition => "FailedPrecondition"
  | aborted => "Aborted"
  | outOfRange => "OutOfRange"
  | unimplemented => "Unimplemented"
  | internal => "Internal"
  | unavailable => "Unavailable"
  | dataLoss => "DataLoss"
  | unauthenticated => "Unauthenticated"

def label : Code → String
  | ok => "Ok"
  | code => code.name

def isOk (c : Code) : Bool := c = ok

/-- A text behind its code, as composed messages start. -/
def heading (c : Code) (text : String) : String := "wire:" ++ c.name ++ ": " ++ text

@[simp] theorem isOk_iff (c : Code) : c.isOk = true ↔ c = ok := by
  simp [isOk]

end Code
end FaultCodec
