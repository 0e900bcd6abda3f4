import FaultCodec.Status

/-!
# Frames

A frame is a status in one byte string: a byte for the code, the message, a zero byte and the bytes
of the payload. The first zero byte ends the message, so a frame is read back faithfully where the
message holds none. Bytes of the message that are not text are replaced.
-/

namespace FaultCodec

structure Frame where
  code : Code
  message : String
  details : List UInt8
  deriving Repr, DecidableEq

namespace Frame

/-- The number of codes that the first byte is reduced to; those outside the code space are
unknown. -/
def codeCount : Nat := 20

/-- The bytes before the first zero byte, and those after it. -/
def splitAtZero : List UInt8 → List UInt8 × List UInt8
  | [] => ([], [])
  | b :: rest =>
    if b = 0 then ([], rest)
    else
      let (before, after) := splitAtZero rest
      (b :: before, after)

/-- The frame of some bytes; none for no bytes. -/
def ofBytes : List UInt8 → Option Frame
  | [] => none
  | b :: rest =>
    let (message, details) := splitAtZero rest
    some ⟨Code.ofNumber (b.toNat % codeCount : Nat),
      String.ofList (Text.Utf8.decodeLossy message), details⟩

def write (s : Status) : List UInt8 :=
  UInt8.ofNat s.code.number :: Text.Utf8.bytes s.message ++ 0 :: s.payloadBytes

def status (f : Frame) : Log.Logged Status := Status.ofParts f.code f.message f.details

def decode (f : Frame) : Log.Logged (Option Fault) := f.status.bind Status.decode

/-- The fault of the frame of some bytes; no bytes are read as nothing. -/
def read (bytes : List UInt8) : Log.Logged (Option Fault) :=
  match ofBytes bytes with
  | none => .quiet none
  | some f => f.decode

@[simp] theorem splitAtZero_zero (rest : List UInt8) : splitAtZero (0 :: rest) = ([], rest) := rfl

theorem splitAtZero_append {a : List UInt8} (h : 0 ∉ a) (b : List UInt8) :
    splitAtZero (a ++ 0 :: b) = (a, b) := by
  induction a with
  | nil => simp
  | cons x a ih =>
    rw [List.mem_cons, not_or] at h
    simp [splitAtZero, Ne.symm h.1, ih h.2]

end Frame
end FaultCodec
