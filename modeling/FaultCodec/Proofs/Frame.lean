import FaultCodec.Frame
import FaultCodec.Proofs.Fault
import FaultCodec.Proofs.Status.Canonical
import FaultCodec.Proofs.Status.Transport
import FaultCodec.Proofs.Text.Lossy

/-!
# Frames on the wire

A frame gives back the fault that was put into it exactly where the message of the fault holds no
null character. One that does is cut there, and no message that is read from a frame holds a null
character, whatever its bytes are.
-/

namespace FaultCodec
namespace Frame

open Text

theorem zero_not_mem_splitAtZero (bs : List UInt8) : 0 ∉ (splitAtZero bs).1 := by
  induction bs with
  | nil => exact List.not_mem_nil
  | cons b bs ih =>
    by_cases hb : b = 0
    · simp [hb]
    · rw [splitAtZero, if_neg hb, List.mem_cons, not_or]
      exact ⟨fun h => hb h.symm, ih⟩

theorem null_not_mem_message {bs : List UInt8} {f : Frame} (h : ofBytes bs = some f) :
    '\x00' ∉ f.message.toList := by
  cases bs with
  | nil => cases h
  | cons b rest =>
    cases h
    simpa using Utf8.null_not_mem_decodeLossy (zero_not_mem_splitAtZero rest)

/-- The number of a code is not changed by the reduction of the first byte. -/
theorem ofNumber_byte (c : Code) :
    Code.ofNumber ((UInt8.ofNat c.number).toNat % codeCount : Nat) = c := by
  cases c <;> rfl

/-- What a written frame is read as depends on the text that is left before the first zero byte. -/
theorem ofBytes_write (s : Status) :
    ∃ f, ofBytes (write s) = some f ∧ f.code = s.code ∧
      ('\x00' ∉ s.message.toList → f = ⟨s.code, s.message, s.payloadBytes⟩) := by
  refine ⟨_, rfl, ofNumber_byte s.code, ?_⟩
  intro h
  have hs : splitAtZero (Utf8.bytes s.message ++ 0 :: s.payloadBytes) =
      (Utf8.bytes s.message, s.payloadBytes) :=
    splitAtZero_append (Utf8.zero_not_mem_encode h) s.payloadBytes
  have hm : String.ofList (Utf8.decodeLossy (Utf8.bytes s.message)) = s.message := by
    simp [Utf8.bytes]
  simp only [List.append_eq, hs, hm, ofNumber_byte]

theorem code_status (f : Frame) : f.status.value.code = f.code := by
  unfold status Status.ofParts
  split <;> rfl

theorem message_status (f : Frame) : f.status.value.message = f.message := by
  unfold status Status.ofParts
  split <;> rfl

theorem value_decode (f : Frame) : f.decode.value = f.status.value.decode.value := rfl

/-- The frame of a fault is never one of success. -/
theorem exists_read_write (f : Fault) : ∃ g, (read (write (.ofFault f))).value = some g := by
  obtain ⟨frame, hb, hc, _⟩ := ofBytes_write (.ofFault f)
  have hn : frame.status.value.code ≠ .ok := by
    rw [code_status, hc]
    exact f.kind.code_ne_ok
  obtain ⟨g, hg⟩ := Status.exists_decode hn
  refine ⟨g, ?_⟩
  rw [read, hb]
  exact hg

theorem decode_of_payloadBytes (s : Status) :
    decode ⟨s.code, s.message, s.payloadBytes⟩ = s.decode := by
  rw [decode, status, Status.ofParts_payloadBytes, Log.Logged.bind_quiet]

theorem null_not_mem_fallbackMessage {s : Status} (h : '\x00' ∉ s.message.toList) :
    '\x00' ∉ s.fallbackMessage.toList := by
  have hc : '\x00' ∉ s.code.name.toList := by
    cases s.code <;> decide
  rw [s.fallbackMessage_eq]
  simp only [String.toList_append, List.mem_append, not_or]
  exact ⟨⟨⟨⟨⟨by decide, hc⟩, by decide⟩, hc⟩, by decide⟩, h⟩

/-- A fault that is read from a frame has no null character in its message, as the frame has
none. -/
theorem null_not_mem_message_of_read {bs : List UInt8} {g : Fault}
    (h : (read bs).value = some g) : '\x00' ∉ g.message.toList := by
  unfold read at h
  cases hf : ofBytes bs with
  | none => simp [hf] at h
  | some f =>
    simp only [hf, value_decode] at h
    have hn : '\x00' ∉ f.status.value.message.toList := by
      rw [message_status]
      exact null_not_mem_message hf
    rw [Status.message_of_decode h]
    split_ifs
    · exact hn
    · exact null_not_mem_fallbackMessage hn

theorem read_write_of_null_not_mem {f : Fault} (h : '\x00' ∉ f.message.toList) :
    read (write (.ofFault f)) = .quiet (some (.rendered f.kind f.message)) := by
  obtain ⟨frame, hb, _, hf⟩ := ofBytes_write (.ofFault f)
  cases hf h
  rw [read, hb]
  exact (decode_of_payloadBytes (.ofFault f)).trans (Status.decode_ofFault f)

theorem ofNumber_eq_ok_iff (n : Nat) : Code.ofNumber n = .ok ↔ n = 0 := by
  constructor
  · intro h
    unfold Code.ofNumber at h
    split at h
    · rename_i hn
      exact Int.natCast_eq_zero.mp hn
    all_goals cases h
  · rintro rfl
    rfl

theorem read_cons (b : UInt8) (rest : List UInt8) :
    ∃ f, ofBytes (b :: rest) = some f ∧ f.code = Code.ofNumber (b.toNat % 20 : Nat) ∧
      read (b :: rest) = f.decode :=
  ⟨_, rfl, rfl, rfl⟩

theorem value_read_eq_none_iff (bs : List UInt8) :
    (read bs).value = none ↔ bs = [] ∨ ∃ b rest, bs = b :: rest ∧ b.toNat % 20 = 0 := by
  cases bs with
  | nil => simp [read, ofBytes]
  | cons b rest =>
    obtain ⟨f, _, hc, hr⟩ := read_cons b rest
    rw [hr, value_decode, Status.value_decode_eq_none_iff, code_status, hc, ofNumber_eq_ok_iff]
    simp

theorem code_of_read {b : UInt8} {rest : List UInt8} {g : Fault}
    (h : (read (b :: rest)).value = some g) (hk : g.kind ≠ .internal) :
    g.code = Code.ofNumber (b.toNat % 20 : Nat) := by
  obtain ⟨f, _, hc, hr⟩ := read_cons b rest
  rw [hr, value_decode] at h
  rw [← hc, ← f.code_status]
  exact Status.code_kind_of_decode h hk

/-- The frame of a fault is read as an equivalent fault exactly if the message holds no null
character, then quietly, and as a fault in any case. Of all byte strings only the empty one and
those of success are read as no fault. A fault of any other kind than internal has the code of its
frame, and its message is the one that it is encoded with again. -/
theorem read_write_equiv_iff :
    (∀ f : Fault, ∃ g, (read (write (.ofFault f))).value = some g ∧
      (g ≈ f ↔ '\x00' ∉ f.message.toList) ∧
      ('\x00' ∉ f.message.toList → (read (write (.ofFault f))).events = [])) ∧
    (∀ bs, (read bs).value = none ↔ bs = [] ∨ ∃ b rest, bs = b :: rest ∧ b.toNat % 20 = 0) ∧
    ∀ bs g, (read bs).value = some g →
      (g.kind ≠ .internal →
        ∃ b rest, bs = b :: rest ∧ g.code = Code.ofNumber (b.toNat % 20 : Nat)) ∧
      (Status.ofFault g).message = g.message := by
  refine ⟨?_, value_read_eq_none_iff, ?_⟩
  · intro f
    by_cases h : '\x00' ∈ f.message.toList
    · obtain ⟨g, hg⟩ := exists_read_write f
      refine ⟨g, hg, ?_, fun hn => absurd h hn⟩
      constructor
      · intro he
        rw [← he.2]
        exact null_not_mem_message_of_read hg
      · intro hn
        exact absurd h hn
    · have hr := read_write_of_null_not_mem h
      refine ⟨.rendered f.kind f.message, by rw [hr]; rfl, ?_, fun _ => by rw [hr]; rfl⟩
      exact ⟨fun _ => h, fun _ => f.rendered_equiv⟩
  · intro bs g hg
    refine ⟨?_, rfl⟩
    intro hk
    cases bs with
    | nil => cases hg
    | cons b rest => exact ⟨b, rest, rfl, code_of_read hg hk⟩

end Frame
end FaultCodec
