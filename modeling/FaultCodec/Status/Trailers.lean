import FaultCodec.Status

/-!
# RPC trailers

The form in which an RPC framework carries a status: a code, a message and opaque detail bytes. The
codes of the framework are a space of their own, with the same numbers. A status is put into
trailers without loss, and trailers are read through the parts of a status.
-/

namespace FaultCodec

/-- A code of the framework: the number of a standard code. -/
structure RpcCode where
  number : Nat
  number_le : number ≤ 16
  deriving Repr, DecidableEq

namespace RpcCode

def unknown : RpcCode := ⟨2, by decide⟩

def ofNumber (n : Int) : RpcCode :=
  if h : 0 ≤ n ∧ n ≤ 16 then ⟨n.toNat, by omega⟩ else unknown

end RpcCode

/-- The framework has a code for every code. -/
@[simp] theorem Code.ofNumber_rpc (c : Code) :
    ofNumber (RpcCode.ofNumber c.number).number = c := by
  cases c <;> rfl

structure Trailers where
  code : RpcCode
  message : String
  details : List UInt8
  deriving Repr, DecidableEq

namespace Trailers

/-- Trailers with any number for a code. -/
def ofRaw (code : Int) (message : String) (details : List UInt8) : Trailers :=
  ⟨RpcCode.ofNumber code, message, details⟩

def ofStatus (s : Status) : Trailers := ⟨RpcCode.ofNumber s.code.number, s.message, s.payloadBytes⟩

def ofFault (f : Fault) : Trailers := ofStatus (Status.ofFault f)

/-- The status of trailers; detail bytes that cannot be read are noted and dropped. -/
def status (t : Trailers) : Log.Logged Status :=
  Status.ofParts (Code.ofNumber t.code.number) t.message t.details

def decode (t : Trailers) : Log.Logged (Option Fault) := t.status.bind Status.decode

end Trailers
end FaultCodec
