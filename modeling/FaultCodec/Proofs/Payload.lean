import FaultCodec.Payload
import FaultCodec.Proofs.Json.Closed

/-!
# Payloads on the wire

Every payload is read back from its bytes, which are never empty. Of bytes that have been cut, it is
read as a whole or not at all.
-/

namespace FaultCodec
namespace Payload

open Json

theorem lookup_text (t : Tag) : (Tag.all.map fun t => (t.text, t)).lookup t.text = some t := by
  cases t <;> decide

theorem reads_tag (t : Tag) : Reads readTag (Value.string t.text).bytes t :=
  reads_choice (lookup_text t)

theorem reads_subtype (t : Tag) (rest : List UInt8) :
    record.readMember {} "subtype" (Byte.colon :: ((Value.string t.text).bytes ++ rest)) =
      .ok ({ tag := some t }, rest) := by
  have hf : record.fields.find? (·.name = "subtype") = some record.fields[0] := rfl
  exact Record.readMember_into hf rfl (reads_tag t rest)

theorem reads_reason (t : Tag) (reason : String) (rest : List UInt8) :
    record.readMember { tag := some t } "reason"
        (Byte.colon :: ((Value.string reason).bytes ++ rest)) =
      .ok ({ tag := some t, reason := some reason }, rest) := by
  have hf : record.fields.find? (·.name = "reason") = some record.fields[1] := rfl
  exact Record.readMember_into hf rfl (reads_text reason rest)

theorem reads_bytes (p : Payload) : Reads read p.bytes p := by
  obtain ⟨tag, reason⟩ := p
  by_cases h : reason = ""
  · subst h
    exact Record.reads_object (.cons (fun rest _ => reads_subtype tag rest) .nil) rfl
  · have hj : toJson ⟨tag, reason⟩ =
        .object [("subtype", .string tag.text), ("reason", .string reason)] := by
      simp [toJson, h]
    rw [bytes, hj]
    exact Record.reads_object (.cons (fun rest _ => reads_subtype tag rest)
      (.cons (fun rest _ => reads_reason tag reason rest) .nil)) rfl

theorem bytes_eq_cons (p : Payload) : ∃ more, p.bytes = Byte.openBrace :: more :=
  ⟨_, bytes_object _⟩

theorem bytes_ne_nil (p : Payload) : p.bytes ≠ [] := by
  obtain ⟨more, h⟩ := p.bytes_eq_cons
  simp [h]

@[simp] theorem ofBytes_bytes (p : Payload) : ofBytes p.bytes = .ok (some p) := by
  rw [ofBytes, (reads_bytes p).parse]
  simp [p.bytes_ne_nil, Except.map]

theorem ofBytes_eq_none_iff {bytes : List UInt8} : ofBytes bytes = .ok none ↔ bytes = [] := by
  constructor
  · intro h
    rw [ofBytes] at h
    split_ifs at h with hb
    · exact List.isEmpty_iff.mp hb
    · cases hp : parse read bytes with
      | error e => simp [hp, Except.map] at h
      | ok p => simp [hp, Except.map] at h
  · rintro rfl
    rfl

theorem closed_read : Closed read := by
  apply Record.closed_read
  intro f hf d
  have ht : Closed readTag := closed_readChoice _
  simp only [record, List.mem_cons, List.not_mem_nil, or_false] at hf
  rcases hf with rfl | rfl
  · exact (ht.into fun t => ({ d with tag := some t } : Draft)).bounded
  · exact (closed_readText.into fun r => ({ d with reason := some r } : Draft)).bounded

theorem ofBytes_take_eq_error (p : Payload) {n : Nat} (h : 0 < n) (hn : n < p.bytes.length) :
    ∃ e, ofBytes (p.bytes.take n) = .error e := by
  have hne : p.bytes.take n ≠ [] := by
    simp [p.bytes_ne_nil, Nat.ne_of_gt h]
  cases hq : parse read (p.bytes.take n) with
  | error e => exact ⟨e, by simp [ofBytes, hne, hq, Except.map]⟩
  | ok q => exact absurd hq (closed_read.parse_take_ne_ok p.reads_bytes hn q)

/-- Cut bytes of a payload are those of that payload, no bytes at all, or unreadable. -/
theorem ofBytes_take (p : Payload) (n : Nat) :
    ofBytes (p.bytes.take n) = .ok (some p) ∨ ofBytes (p.bytes.take n) = .ok none ∨
      ∃ e, ofBytes (p.bytes.take n) = .error e := by
  rcases Nat.lt_or_ge n p.bytes.length with hn | hn
  · right
    rcases Nat.eq_zero_or_pos n with rfl | h
    · exact Or.inl rfl
    · exact Or.inr (p.ofBytes_take_eq_error h hn)
  · left
    rw [List.take_of_length_le hn, ofBytes_bytes]

theorem ofBytes_between_space (p : Payload) {before after : List UInt8}
    (hb : ∀ b ∈ before, Byte.isSpace b = true) (ha : ∀ b ∈ after, Byte.isSpace b = true) :
    ofBytes (before ++ (p.bytes ++ after)) = .ok (some p) := by
  have hp : parse read (p.bytes ++ after) = .ok p :=
    p.reads_bytes.parse_append ((skipSpace_eq_nil_iff after).mpr ha)
  have hr : parse read (before ++ (p.bytes ++ after)) = parse read (p.bytes ++ after) := by
    rw [parse, parse, read, Record.read_append_of_space hb]
  simp [ofBytes, p.bytes_ne_nil, hr, hp, Except.map]

theorem ofBytes_append_eq_error (p : Payload) {after : List UInt8}
    (h : ∃ b ∈ after, Byte.isSpace b = false) :
    ofBytes (p.bytes ++ after) = failOn .trailingCharacters (skipSpace after) := by
  have hs : skipSpace after ≠ [] := by
    intro hs
    obtain ⟨b, hb, hf⟩ := h
    simp [(skipSpace_eq_nil_iff after).mp hs b hb] at hf
  have hp := p.reads_bytes.parse_append_of_ne_nil hs
  simp [ofBytes, p.bytes_ne_nil, hp, failOn, Except.map]

end Payload
end FaultCodec
