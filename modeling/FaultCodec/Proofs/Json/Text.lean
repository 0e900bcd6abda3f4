import FaultCodec.Json.Text
import FaultCodec.Proofs.Text.Utf8

/-!
# Reading written strings back

A piece of a string takes the machine from one state to another and adds some bytes on the way. The
escaped form of a character takes it from plain to plain and adds the encoding of the character, so
reading a written string gives that string, whatever stands after its closing quote.
-/

namespace FaultCodec
namespace Json

open Text

theorem bind_eq_ok {α β ε : Type} {x : Except ε α} {f : α → Except ε β} {b : β} :
    x >>= f = .ok b ↔ ∃ a, x = .ok a ∧ f a = .ok b := by
  cases x with
  | error e => simp [bind, Except.bind]
  | ok a => simp [bind, Except.bind]

/-- What a piece of a string adds and where the machine stands behind it; none if the piece is
refused or holds the closing quote. -/
def StringState.feed : StringState → List UInt8 → Option (List UInt8 × StringState)
  | state, [] => some ([], state)
  | state, b :: bs =>
    if state = .plain ∧ b = Byte.quote then none
    else match state.step b with
      | .error _ => none
      | .ok (added, next) => (next.feed bs).map fun (more, last) => (added ++ more, last)

namespace StringState

theorem feed_append {state middle last : StringState} {a b x y : List UInt8}
    (ha : state.feed a = some (x, middle)) (hb : middle.feed b = some (y, last)) :
    state.feed (a ++ b) = some (x ++ y, last) := by
  induction a generalizing state x with
  | nil =>
    cases ha
    exact hb
  | cons c a ih =>
    simp only [List.cons_append, feed] at ha ⊢
    split_ifs at ha ⊢ with hq
    split at ha
    · cases ha
    · obtain ⟨⟨more, _⟩, hm, he⟩ := Option.map_eq_some_iff.mp ha
      cases he
      simp [ih hm]

theorem feed_of_le {bs : List UInt8} (h : ∀ b ∈ bs, 0x80 ≤ b) :
    plain.feed bs = some (bs, .plain) := by
  induction bs with
  | nil => rfl
  | cons b bs ih =>
    have hb : 0x80 ≤ b.toNat := UInt8.le_iff_toNat_le.mp (h b List.mem_cons_self)
    have hq : b ≠ Byte.quote := by rintro rfl; exact absurd hb (by decide)
    have hs : b ≠ Byte.backslash := by rintro rfl; exact absurd hb (by decide)
    have hc : ¬b < 0x20 := by
      rw [UInt8.lt_iff_toNat_lt]
      exact Nat.not_lt.mpr (Nat.le_trans (by decide) hb)
    simp [feed, step, hq, hs, hc, ih fun c hc => h c (List.mem_cons_of_mem b hc)]

theorem feed_escapeChar_of_ascii : ∀ n < 0x80,
    plain.feed (Utf8.encode (escapeChar (Char.ofNat n))) =
      some (Utf8.encodeChar (Char.ofNat n), .plain) := by
  decide +kernel

theorem escapeChar_of_le {c : Char} (h : 0x80 ≤ c.toNat) : escapeChar c = [c] := by
  have hne : ∀ d : Char, d.toNat < 0x80 → c ≠ d := by
    rintro d hd rfl
    exact absurd h (Nat.not_le.mpr hd)
  simp only [escapeChar]
  rw [if_neg (hne _ (by decide)), if_neg (hne _ (by decide)), if_neg (hne _ (by decide)),
    if_neg (hne _ (by decide)), if_neg (hne _ (by decide)), if_neg (hne _ (by decide)),
    if_neg (hne _ (by decide)), if_neg (by omega), if_neg (by omega)]

theorem feed_escapeChar (c : Char) :
    plain.feed (Utf8.encode (escapeChar c)) = some (Utf8.encodeChar c, .plain) := by
  by_cases h : c.toNat < 0x80
  · have hc := feed_escapeChar_of_ascii c.toNat h
    rwa [Char.ofNat_toNat] at hc
  · rw [escapeChar_of_le (Nat.not_lt.mp h)]
    simpa using feed_of_le fun b hb => Utf8.le_of_mem_encodeChar (Nat.not_lt.mp h) hb

theorem feed_escape (cs : List Char) :
    plain.feed (Utf8.encode (cs.flatMap escapeChar)) = some (Utf8.encode cs, .plain) := by
  induction cs with
  | nil => rfl
  | cons c cs ih =>
    rw [List.flatMap_cons, Utf8.encode_append, Utf8.encode_cons]
    exact feed_append (feed_escapeChar c) ih

end StringState

/-- Reading goes on behind a piece with what the piece has added. -/
theorem gatherString_feed {state next : StringState} {bs added : List UInt8}
    (h : state.feed bs = some (added, next)) (gathered rest : List UInt8) :
    gatherString state gathered (bs ++ rest) =
      gatherString next (added.reverse ++ gathered) rest := by
  induction bs generalizing state added gathered with
  | nil =>
    cases h
    rfl
  | cons b bs ih =>
    simp only [StringState.feed] at h
    split_ifs at h with hq
    split at h
    · cases h
    · next x m hs =>
      obtain ⟨⟨more, _⟩, hm, he⟩ := Option.map_eq_some_iff.mp h
      cases he
      simp [gatherString, hq, hs, ih hm]

/-- A closing quote behind well-formed bytes ends the string that they are the text of. -/
theorem readString_of_feed {bs : List UInt8} {s : String}
    (h : StringState.plain.feed bs = some (Utf8.bytes s, .plain)) (rest : List UInt8) :
    readString (bs ++ Byte.quote :: rest) = .ok (s, rest) := by
  rw [readString, gatherString_feed h]
  simp [gatherString, bind, Except.bind]

/-- The bytes of a written string without its opening quote. -/
def stringTail (s : String) : List UInt8 :=
  Utf8.encode (s.toList.flatMap escapeChar) ++ [Byte.quote]

theorem bytes_quote (s : String) : Utf8.bytes (quote s) = Byte.quote :: stringTail s := by
  rw [quote, Utf8.bytes_append, Utf8.bytes_append, Utf8.bytes_ofList (s.toList.flatMap escapeChar)]
  rfl

@[simp] theorem readString_stringTail (s : String) (rest : List UInt8) :
    readString (stringTail s ++ rest) = .ok (s, rest) := by
  rw [stringTail, List.append_assoc, List.singleton_append]
  exact readString_of_feed (StringState.feed_escape s.toList) rest

end Json
end FaultCodec
