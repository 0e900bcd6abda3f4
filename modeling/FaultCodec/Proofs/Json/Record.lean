import FaultCodec.Json.Record
import FaultCodec.Json.Value
import FaultCodec.Proofs.Json.Text
import Mathlib.Data.List.TakeWhile

/-!
# Reading written objects back

The text of an object is the texts of its members between commas. A record reads them one after the
other into its draft, so a written object is read as the record of the draft that its members fill.
-/

namespace FaultCodec
namespace Json

open Text

variable {α β σ : Type}

/-- The reader takes exactly this text off the front, whatever follows it. -/
def Reads (read : Reader α) (text : List UInt8) (a : α) : Prop :=
  ∀ rest, read (text ++ rest) = .ok (a, rest)

theorem skipSpace_eq_nil_iff (s : List UInt8) :
    skipSpace s = [] ↔ ∀ b ∈ s, Byte.isSpace b = true :=
  List.dropWhile_eq_nil_iff

theorem skipSpace_append_of_space {before : List UInt8}
    (h : ∀ b ∈ before, Byte.isSpace b = true) (s : List UInt8) :
    skipSpace (before ++ s) = skipSpace s :=
  List.dropWhile_append_of_pos h

theorem Reads.parse_append {read : Reader α} {text : List UInt8} {a : α} (h : Reads read text a)
    {after : List UInt8} (hs : skipSpace after = []) : parse read (text ++ after) = .ok a := by
  simp [Json.parse, h after, hs, bind, Except.bind]

theorem Reads.parse {read : Reader α} {text : List UInt8} {a : α} (h : Reads read text a) :
    parse read text = .ok a := by
  have hp := h.parse_append skipSpace_nil
  rwa [List.append_nil] at hp

theorem Reads.parse_append_of_ne_nil {read : Reader α} {text : List UInt8} {a : α}
    (h : Reads read text a) {after : List UInt8} (hs : skipSpace after ≠ []) :
    Json.parse read (text ++ after) = failOn .trailingCharacters (skipSpace after) := by
  cases hd : skipSpace after with
  | nil => exact absurd hd hs
  | cons b more => simp [Json.parse, h after, hd, bind, Except.bind]

theorem bytes_string (s : String) : (Value.string s).bytes = Byte.quote :: stringTail s := by
  rw [Value.bytes, Value.render, bytes_quote]

theorem reads_text (s : String) : Reads readText (Value.string s).bytes s := by
  intro rest
  rw [bytes_string]
  exact readString_stringTail s rest

theorem reads_choice {choices : List (String × α)} {name : String} {a : α}
    (h : choices.lookup name = some a) :
    Reads (readChoice choices) (Value.string name).bytes a := by
  intro rest
  rw [bytes_string]
  change readNamed choices (stringTail name ++ rest) = _
  simp [readNamed, choose, h, bind, Except.bind]

theorem Reads.optional {read : Reader α} {b : UInt8} {text : List UInt8} {a : α}
    (h : Reads read (b :: text) a) (hs : Byte.isSpace b = false) (hn : b ≠ Byte.lowerN) :
    Reads (readOptional read) (b :: text) (some a) := by
  intro rest
  have hr := h rest
  rw [List.cons_append] at hr ⊢
  rw [readOptional, skipSpace_cons_of_not_space _ hs]
  split
  · simp_all
  · simp [hr, bind, Except.bind, pure, Except.pure]

/-- What stands behind a member. -/
def Follows (rest : List UInt8) : Prop :=
  ∃ more, rest = Byte.comma :: more ∨ rest = Byte.closeBrace :: more

def memberText (m : String × List UInt8) : List UInt8 :=
  Utf8.bytes (quote m.1) ++ Byte.colon :: m.2

/-- The texts of some members, between commas. -/
def membersText : List (String × List UInt8) → List UInt8
  | [] => []
  | [m] => memberText m
  | m :: n :: ms => memberText m ++ Byte.comma :: membersText (n :: ms)

theorem length_le_membersText : ∀ ms : List (String × List UInt8),
    ms.length ≤ (membersText ms).length
  | [] => by simp [membersText]
  | [m] => by simp [membersText, memberText]; omega
  | m :: n :: ms => by
    have ih := length_le_membersText (n :: ms)
    simp only [membersText, List.length_append, List.length_cons] at ih ⊢
    omega

theorem bytes_renderMember (m : String × Value) :
    Utf8.bytes (Value.renderMember m) = memberText (m.1, m.2.bytes) := by
  obtain ⟨name, v⟩ := m
  rw [Value.renderMember, Utf8.bytes_append, Utf8.bytes_append, List.append_assoc]
  rfl

theorem bytes_renderMembers : ∀ ms : List (String × Value),
    Utf8.bytes (Value.renderMembers ms) = membersText (ms.map fun m => (m.1, m.2.bytes))
  | [] => rfl
  | [m] => bytes_renderMember m
  | m :: n :: ms => by
    rw [Value.renderMembers, Utf8.bytes_append, Utf8.bytes_append, bytes_renderMember,
      bytes_renderMembers (n :: ms), List.append_assoc]
    rfl

theorem bytes_object (ms : List (String × Value)) :
    (Value.object ms).bytes =
      Byte.openBrace :: (membersText (ms.map fun m => (m.1, m.2.bytes)) ++ [Byte.closeBrace]) := by
  rw [Value.bytes, Value.render, Utf8.bytes_append, Utf8.bytes_append, bytes_renderMembers,
    List.append_assoc]
  rfl

namespace Record

variable {r : Record σ α} {draft middle last : σ} {name : String} {text : List UInt8}
  {ms : List (String × List UInt8)}

/-- The draft that the given members fill, from another one on. -/
inductive Gathers (r : Record σ α) : σ → List (String × List UInt8) → σ → Prop
  | nil {draft : σ} : Gathers r draft [] draft
  | cons {draft middle last : σ} {name : String} {text : List UInt8}
      {ms : List (String × List UInt8)}
      (head : ∀ rest, Follows rest →
        r.readMember draft name (Byte.colon :: (text ++ rest)) = .ok (middle, rest))
      (tail : Gathers r middle ms last) : Gathers r draft ((name, text) :: ms) last

/-- A member that the draft lacks is read by its field, which puts the value into the draft. -/
theorem readMember_into {isSet : σ → Bool} {read : Reader β} {put : σ → β → σ} {b : β}
    {rest : List UInt8}
    (hf : r.fields.find? (·.name = name) = some ⟨name, isSet, fun d => Json.into read (put d)⟩)
    (hs : isSet draft = false) (hr : read (text ++ rest) = .ok (b, rest)) :
    r.readMember draft name (Byte.colon :: (text ++ rest)) = .ok (put draft b, rest) := by
  simp only [readMember, hf, hs]
  exact bind_eq_ok.mpr ⟨text ++ rest, rfl, bind_eq_ok.mpr ⟨_, hr, rfl⟩⟩

theorem readMember_of_error {isSet : σ → Bool} {read : Reader β} {put : σ → β → σ} {e : Error}
    {rest : List UInt8}
    (hf : r.fields.find? (·.name = name) = some ⟨name, isSet, fun d => Json.into read (put d)⟩)
    (hs : isSet draft = false) (hr : read (text ++ rest) = .error e) :
    r.readMember draft name (Byte.colon :: (text ++ rest)) = .error e := by
  simp only [readMember, hf, hs]
  change (read (text ++ rest) >>= _) = _
  rw [hr]
  rfl

theorem readMembers_last {rest : List UInt8} (bound : Nat)
    (h : r.readMember draft name (Byte.colon :: (text ++ Byte.closeBrace :: rest)) =
      .ok (last, Byte.closeBrace :: rest)) :
    r.readMembers (bound + 1) draft (memberText (name, text) ++ Byte.closeBrace :: rest) =
      .ok (last, rest) := by
  rw [memberText, bytes_quote, List.cons_append, List.cons_append, List.append_assoc]
  change (readString (stringTail name ++ _) >>= _) = _
  rw [readString_stringTail]
  change (r.readMember draft name (Byte.colon :: (text ++ _)) >>= _) = _
  rw [h]
  rfl

theorem readMembers_more {more : List UInt8} (bound : Nat)
    (h : r.readMember draft name (Byte.colon :: (text ++ Byte.comma :: Byte.quote :: more)) =
      .ok (middle, Byte.comma :: Byte.quote :: more)) :
    r.readMembers (bound + 1) draft
        (memberText (name, text) ++ Byte.comma :: Byte.quote :: more) =
      r.readMembers bound middle (Byte.quote :: more) := by
  rw [memberText, bytes_quote, List.cons_append, List.cons_append, List.append_assoc]
  change (readString (stringTail name ++ _) >>= _) = _
  rw [readString_stringTail]
  change (r.readMember draft name (Byte.colon :: (text ++ _)) >>= _) = _
  rw [h]
  rfl

theorem membersText_cons (m : String × List UInt8) (ms : List (String × List UInt8)) :
    ∃ more, membersText (m :: ms) = Byte.quote :: more := by
  cases ms with
  | nil => exact ⟨_, by rw [membersText, memberText, bytes_quote, List.cons_append]⟩
  | cons n ms =>
    exact ⟨_, by rw [membersText, memberText, bytes_quote, List.cons_append, List.cons_append]⟩

theorem readMembers_of_gathers (h : Gathers r draft ms last) {bound : Nat} (hne : ms ≠ [])
    (hb : ms.length ≤ bound) (rest : List UInt8) :
    r.readMembers bound draft (membersText ms ++ Byte.closeBrace :: rest) = .ok (last, rest) := by
  induction h generalizing bound with
  | nil => exact absurd rfl hne
  | @cons draft middle last name text ms head tail ih =>
    obtain ⟨bound, rfl⟩ : ∃ n, bound = n + 1 := Nat.exists_eq_succ_of_ne_zero (by
      simp only [List.length_cons] at hb
      omega)
    cases ms with
    | nil =>
      cases tail
      exact readMembers_last bound (head _ ⟨rest, Or.inr rfl⟩)
    | cons n ms =>
      have hn := ih (by simp) (Nat.le_of_succ_le_succ hb)
      obtain ⟨more, hm⟩ := membersText_cons n ms
      rw [hm, List.cons_append] at hn
      rw [membersText, List.append_assoc, List.cons_append, hm, List.cons_append,
        readMembers_more bound (head _ ⟨_, Or.inl rfl⟩), hn]

theorem readObject_of_gathers (h : Gathers r r.blank ms last) (rest : List UInt8) :
    r.readObject (membersText ms ++ Byte.closeBrace :: rest) = .ok (last, rest) := by
  cases ms with
  | nil =>
    cases h
    rfl
  | cons m ms =>
    obtain ⟨more, hm⟩ := membersText_cons m ms
    have hb := length_le_membersText (m :: ms)
    have hr : r.readMembers ((membersText (m :: ms) ++ Byte.closeBrace :: rest).length + 1) r.blank
        (membersText (m :: ms) ++ Byte.closeBrace :: rest) = .ok (last, rest) := by
      apply readMembers_of_gathers h (by simp)
      rw [List.length_append]
      omega
    rw [hm] at hr ⊢
    exact hr

theorem read_append_of_space {before : List UInt8} (h : ∀ b ∈ before, Byte.isSpace b = true)
    (s : List UInt8) : r.read (before ++ s) = r.read s := by
  simp only [Record.read, skipSpace_append_of_space h]

theorem reads_object {members : List (String × Value)} {a : α}
    (h : Gathers r r.blank (members.map fun m => (m.1, m.2.bytes)) last)
    (hf : r.finish last = .ok a) : Reads r.read (Value.object members).bytes a := by
  intro rest
  rw [bytes_object, List.cons_append, List.append_assoc, List.singleton_append]
  refine bind_eq_ok.mpr ⟨_, readObject_of_gathers h _, ?_⟩
  dsimp only
  rw [hf]

theorem read_object_of_error {v : Value} {e : Error}
    (h : r.readMember r.blank name (Byte.colon :: (v.bytes ++ [Byte.closeBrace])) = .error e) :
    r.read (Value.object [(name, v)]).bytes = .error e := by
  rw [bytes_object, List.map_singleton, membersText, memberText, bytes_quote, List.cons_append,
    List.cons_append, List.append_assoc]
  change ((readString (stringTail name ++ _) >>= _) >>= _) = _
  rw [readString_stringTail]
  change ((r.readMember r.blank name (Byte.colon :: (v.bytes ++ _)) >>= _) >>= _) = _
  rw [h]
  rfl

end Record
end Json
end FaultCodec
