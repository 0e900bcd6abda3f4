import FaultCodec.Proofs.Json.Spelling

/-!
# Every spelled value is stepped over

A number ends where nothing follows that it could go on with, and every other value shows its own
end. So the bytes of a value are stepped over as a whole, whatever its depth: two levels of the
recursion are enough for every byte.
-/

namespace FaultCodec
namespace Json

open Document (Part Spells)
open Text

/-! ## Numbers -/

theorem isDigit_eq_false_of_isStop {b : UInt8} (h : isStop b = true) : Byte.isDigit b = false := by
  simp only [isStop, Byte.isSpace, Bool.or_eq_true, beq_iff_eq] at h
  rcases h with (((((rfl | rfl) | rfl) | rfl) | rfl) | rfl) | rfl <;> decide

namespace Number

variable {ds rest fraction exponent whole sign : List UInt8}

theorem startsWithDigit_of_stops (h : Stops rest) : startsWithDigit rest = false := by
  cases rest with
  | nil => rfl
  | cons b rest => exact isDigit_eq_false_of_isStop (stops_cons.mp h)

theorem dropWhile_digits (h : ∀ c ∈ ds, Byte.isDigit c = true) (hr : startsWithDigit rest = false) :
    (ds ++ rest).dropWhile Byte.isDigit = rest := by
  rw [List.dropWhile_append_of_pos h]
  cases rest with
  | nil => rfl
  | cons b rest => exact List.dropWhile_cons_of_neg (by simpa [startsWithDigit] using hr)

theorem dropWhile_isDigits (h : IsDigits ds) (hr : startsWithDigit rest = false) :
    (ds ++ rest).dropWhile Byte.isDigit = rest := by
  cases h with
  | digits hb hmore =>
    apply dropWhile_digits _ hr
    intro c hc
    rcases List.mem_cons.mp hc with rfl | hc
    · exact hb
    · exact hmore c hc

theorem startsWithDigit_isDigits (h : IsDigits ds) : startsWithDigit (ds ++ rest) = true := by
  cases h with
  | digits hb hmore => exact hb

theorem skipRun_isDigits (h : IsDigits ds) (hr : startsWithDigit rest = false) :
    skipRun (ds ++ rest) = .ok rest := by
  cases h with
  | digits hb hmore =>
    rw [List.cons_append, skipRun, if_pos hb, dropWhile_digits hmore hr]

theorem passSign_isDigits (h : IsDigits ds) : passSign (ds ++ rest) = ds ++ rest := by
  cases h with
  | digits hb hmore =>
    rw [List.cons_append, passSign]
    · rintro more he
      cases he
      exact absurd hb (by decide)
    · rintro more he
      cases he
      exact absurd hb (by decide)

theorem passSign_isSign (hs : IsSign sign) (h : IsDigits ds) :
    passSign (sign ++ (ds ++ rest)) = ds ++ rest := by
  cases hs with
  | none => rw [List.nil_append, passSign_isDigits h]
  | plus => rfl
  | minus => rfl

theorem skipEnd_of_stops (h : Stops rest) : skipEnd rest = .ok rest := by
  cases rest with
  | nil => rfl
  | cons b rest =>
    have hb := stops_cons.mp h
    rw [skipEnd]
    · rintro more he
      cases he
      exact absurd hb (by decide)
    · rintro more he
      cases he
      exact absurd hb (by decide)

theorem skipEnd_isExponent (h : IsExponent exponent) (hr : Stops rest) :
    skipEnd (exponent ++ rest) = .ok rest := by
  cases h with
  | none => exact skipEnd_of_stops hr
  | @some e sign ds he hsign hds =>
    have hx : skipExponent (sign ++ (ds ++ rest)) = .ok rest := by
      rw [skipExponent_eq, passSign_isSign hsign hds,
        skipRun_isDigits hds (startsWithDigit_of_stops hr)]
    rw [List.cons_append, List.append_assoc]
    rcases he with rfl | rfl
    · exact hx
    · exact hx

theorem startsWithDigit_isExponent (h : IsExponent exponent) (hr : Stops rest) :
    startsWithDigit (exponent ++ rest) = false := by
  cases h with
  | none => exact startsWithDigit_of_stops hr
  | some he hsign hds => rcases he with rfl | rfl <;> rfl

theorem skipTail_isExponent (h : IsExponent exponent) (hr : Stops rest) :
    skipTail (exponent ++ rest) = skipEnd (exponent ++ rest) := by
  cases hx : exponent ++ rest with
  | nil => rfl
  | cons b more =>
    rw [skipTail]
    rintro tail he
    cases he
    -- neither an exponent nor what stands behind a value starts with a point
    cases h with
    | none =>
      rw [List.nil_append] at hx
      rw [hx] at hr
      exact absurd (stops_cons.mp hr) (by decide)
    | some he hsign hds => rcases he with rfl | rfl <;> cases hx

theorem skipTail_point (s : List UInt8) : skipTail (Byte.point :: s) =
    if startsWithDigit s then skipEnd (s.dropWhile Byte.isDigit) else failOn .invalidNumber s := rfl

theorem skipDigits_zero (s : List UInt8) : skipDigits (Byte.zero :: s) =
    if startsWithDigit s then failOn .invalidNumber s else skipTail s := rfl

theorem skipTail_isFraction (hf : IsFraction fraction) (h : IsExponent exponent) (hr : Stops rest) :
    skipTail (fraction ++ (exponent ++ rest)) = .ok rest := by
  have he := skipEnd_isExponent h hr
  cases hf with
  | none => rw [List.nil_append, skipTail_isExponent h hr, he]
  | some hds =>
    rw [List.cons_append, skipTail_point, if_pos (startsWithDigit_isDigits hds),
      dropWhile_isDigits hds (startsWithDigit_isExponent h hr), he]

theorem startsWithDigit_isFraction (hf : IsFraction fraction) (h : IsExponent exponent)
    (hr : Stops rest) : startsWithDigit (fraction ++ (exponent ++ rest)) = false := by
  cases hf with
  | none => rw [List.nil_append, startsWithDigit_isExponent h hr]
  | some hds => rfl

theorem skipDigits_isWhole (hw : IsWhole whole) (hf : IsFraction fraction) (h : IsExponent exponent)
    (hr : Stops rest) : skipDigits (whole ++ (fraction ++ (exponent ++ rest))) = .ok rest := by
  have ht := skipTail_isFraction hf h hr
  have hd := startsWithDigit_isFraction hf h hr
  cases hw with
  | zero =>
    rw [List.singleton_append, skipDigits_zero, if_neg (by simp [hd]), ht]
  | digits hz hds =>
    cases hds with
    | digits hb hmore =>
      rw [List.cons_append, skipDigits, if_pos hb, dropWhile_digits hmore hd, ht]
      exact hz

end Number

theorem skipScalar_of_isDigit {b : UInt8} {rest : List UInt8} (h : Byte.isDigit b = true) :
    skipScalar (b :: rest) = Number.skipDigits (b :: rest) := by
  have hne : ∀ c, Byte.isDigit c = false → b ≠ c := by
    rintro c hc rfl
    simp [h] at hc
  rw [skipScalar, if_pos h]
  · exact hne _ (by decide)
  · exact hne _ (by decide)
  · exact hne _ (by decide)
  · exact hne _ (by decide)
  · exact hne _ (by decide)

theorem IsWhole.exists_cons {whole : List UInt8} (h : IsWhole whole) :
    ∃ b more, whole = b :: more ∧ Byte.isDigit b = true := by
  cases h with
  | zero => exact ⟨_, _, rfl, by decide⟩
  | digits hz hds =>
    cases hds with
    | digits hb hmore => exact ⟨_, _, rfl, hb⟩

theorem Numeral.skipScalar_text (n : Numeral) {rest : List UInt8} (hr : Stops rest) :
    skipScalar (n.text ++ rest) = .ok rest := by
  have hd := Number.skipDigits_isWhole n.isWhole n.isFraction n.isExponent hr
  rw [text, List.append_assoc, List.append_assoc, List.append_assoc]
  cases n.negative with
  | true => exact hd
  | false =>
    obtain ⟨b, more, hw, hb⟩ := n.isWhole.exists_cons
    change skipScalar (n.whole ++ _) = _
    rw [hw, List.cons_append] at hd ⊢
    rw [skipScalar_of_isDigit hb, hd]

/-! ## Words -/

theorem expectIdent_append_self (word rest : List UInt8) :
    expectIdent word (word ++ rest) = .ok rest := by
  induction word with
  | nil => rfl
  | cons w word ih => rw [List.cons_append, expectIdent, if_pos rfl, ih]

theorem skipScalar_null (rest : List UInt8) : skipScalar (Utf8.bytes "null" ++ rest) = .ok rest :=
  expectIdent_append_self (identTail "ull") rest

theorem skipScalar_boolean (b : Bool) (rest : List UInt8) :
    skipScalar (Utf8.bytes (if b then "true" else "false") ++ rest) = .ok rest := by
  cases b with
  | true => exact expectIdent_append_self (identTail "rue") rest
  | false => exact expectIdent_append_self (identTail "alse") rest

/-! ## First bytes -/

theorem isStop_of_isDigit {b : UInt8} (h : Byte.isDigit b = true) : isStop b = false := by
  cases hs : isStop b with
  | false => rfl
  | true => simp [isDigit_eq_false_of_isStop hs] at h

theorem Numeral.exists_cons (n : Numeral) : ∃ b more, n.text = b :: more ∧
    (b = Byte.minus ∨ Byte.isDigit b = true) := by
  rw [text]
  cases n.negative with
  | true => exact ⟨_, _, rfl, Or.inl rfl⟩
  | false =>
    obtain ⟨b, more, hw, hb⟩ := n.isWhole.exists_cons
    exact ⟨b, more ++ (n.fraction ++ n.exponent), by simp [hw], Or.inr hb⟩

/-- The bytes that the spellings of a value start with. -/
def Document.startsWith : Document → UInt8 → Bool
  | .null, b => b == Byte.lowerN
  | .boolean true, b => b == Byte.lowerT
  | .boolean false, b => b == Byte.lowerF
  | .number _, b => b == Byte.minus || Byte.isDigit b
  | .string _, b => b == Byte.quote
  | .list _, b => b == Byte.openBracket
  | .object _, b => b == Byte.openBrace

theorem Document.Spells.exists_cons {v : Document} {text : List UInt8}
    (h : Spells (.value v) text) : ∃ b more, text = b :: more ∧ v.startsWith b = true := by
  cases h with
  | null => exact ⟨_, _, rfl, rfl⟩
  | boolean b => cases b <;> exact ⟨_, _, rfl, rfl⟩
  | number n =>
    obtain ⟨b, more, hn, hb⟩ := n.exists_cons
    exact ⟨b, more, hn, by simpa [startsWith] using hb⟩
  | string _ => exact ⟨_, _, rfl, rfl⟩
  | emptyList _ => exact ⟨_, _, rfl, rfl⟩
  | list _ => exact ⟨_, _, rfl, rfl⟩
  | emptyObject _ => exact ⟨_, _, rfl, rfl⟩
  | object _ => exact ⟨_, _, rfl, rfl⟩

/-- No value ends in front of a value. -/
theorem Document.isStop_of_startsWith {v : Document} {b : UInt8} (h : v.startsWith b = true) :
    isStop b = false := by
  fun_cases startsWith v b with
  | case4 n b =>
    rcases (Bool.or_eq_true _ _).mp h with h | h
    · cases eq_of_beq h
      decide
    · exact isStop_of_isDigit h
  | _ =>
    cases eq_of_beq h
    decide

theorem isSpace_of_isStop {b : UInt8} (h : isStop b = false) : Byte.isSpace b = false := by
  cases hs : Byte.isSpace b with
  | false => rfl
  | true => simp [isStop_of_isSpace hs] at h

theorem Document.Spells.skipSpace_append {v : Document} {text : List UInt8}
    (h : Spells (.value v) text) (rest : List UInt8) : skipSpace (text ++ rest) = text ++ rest := by
  obtain ⟨b, more, rfl, hb⟩ := h.exists_cons
  exact skipSpace_cons_of_not_space _ (isSpace_of_isStop (isStop_of_startsWith hb))

/-- Items start with a value, so an end does not follow at once. -/
theorem Document.Spells.skipSpace_items {vs : List Document} {text : List UInt8}
    (h : Spells (.items vs) text) (rest : List UInt8) :
    ∃ b more, skipSpace (text ++ rest) = b :: more ∧ isStop b = false := by
  cases h with
  | items hspace hv hvs =>
    obtain ⟨b, more, rfl, hb⟩ := hv.exists_cons
    rw [List.append_assoc, hspace.skipSpace_append]
    exact ⟨b, _, skipSpace_cons_of_not_space _ (isSpace_of_isStop (isStop_of_startsWith hb)),
      isStop_of_startsWith hb⟩

theorem Document.Spells.skipSpace_members {ms : List (String × Document)} {text : List UInt8}
    (h : Spells (.members ms) text) (rest : List UInt8) :
    ∃ more, skipSpace (text ++ rest) = Byte.quote :: more := by
  cases h with
  | members hspace hm hms =>
    cases hm with
    | member hkey hbefore hafter hv =>
      rw [List.append_assoc, hspace.skipSpace_append]
      exact ⟨_, skipSpace_cons_of_not_space _ (by decide)⟩

theorem Document.Spells.length_pos {v : Document} {text : List UInt8}
    (h : Spells (.value v) text) : 0 < text.length := by
  obtain ⟨b, more, rfl, hb⟩ := h.exists_cons
  exact Nat.zero_lt_succ _

theorem Document.Spells.stops_behindItem {vs : List Document} {text rest : List UInt8}
    (h : Spells (.behindItem vs) text) (hr : Stops rest) : Stops (text ++ rest) := by
  cases h with
  | lastItem h => exact h.stops_append hr
  | nextItem hspace h =>
    rw [List.append_assoc, List.cons_append]
    exact hspace.stops_append (stops_cons.mpr (by decide))

theorem Document.Spells.stops_behindMember {ms : List (String × Document)} {text rest : List UInt8}
    (h : Spells (.behindMember ms) text) (hr : Stops rest) : Stops (text ++ rest) := by
  cases h with
  | lastMember h => exact h.stops_append hr
  | nextMember hspace h =>
    rw [List.append_assoc, List.cons_append]
    exact hspace.stops_append (stops_cons.mpr (by decide))

/-! ## Values -/

@[simp] theorem skipWithin_skipSpace (depth : Nat) (s : List UInt8) :
    skipWithin (depth + 1) (skipSpace s) = skipWithin (depth + 1) s := by
  simp only [skipWithin, skipSpace_skipSpace]

theorem skipElements_skipSpace (depth : Nat) (s : List UInt8) :
    skipElements (depth + 2) (skipSpace s) = skipElements (depth + 2) s := by
  simp only [skipElements, skipWithin_skipSpace]

theorem skipMembers_skipSpace (depth : Nat) (s : List UInt8) :
    skipMembers (depth + 1) (skipSpace s) = skipMembers (depth + 1) s := by
  simp only [skipMembers, skipName, skipSpace_skipSpace]

theorem Blank.skipWithin_append {space : List UInt8} (h : Blank space) (depth : Nat)
    (s : List UInt8) : skipWithin (depth + 1) (space ++ s) = skipWithin (depth + 1) s := by
  simp only [skipWithin, h.skipSpace_append]

theorem Blank.skipName_append {space : List UInt8} (h : Blank space) (s : List UInt8) :
    skipName (space ++ s) = skipName s := by
  simp only [skipName, h.skipSpace_append]

theorem expectColon_append_of_space {before : List UInt8} (h : Blank before) (s : List UInt8) :
    expectColon (before ++ Byte.colon :: s) = .ok s := by
  rw [expectColon, h.skipSpace_append]
  rfl

theorem skipName_member {name : String} {key before : List UInt8}
    (hkey : SpellsText name.toList key) (hbefore : Blank before) (s : List UInt8) :
    skipName (Byte.quote :: (key ++ Byte.quote :: (before ++ Byte.colon :: s))) = .ok s := by
  change (skipString .plain _ >>= expectColon) = _
  rw [hkey.skipString]
  exact expectColon_append_of_space hbefore s

section Behind

variable {close : UInt8} {atEnd expected : Problem}
  {items : List UInt8 → Except Error (List UInt8)} {space : List UInt8}

theorem skipInside_close (h : Blank space) (hs : Byte.isSpace close = false) (rest : List UInt8) :
    skipInside close atEnd items (space ++ close :: rest) = .ok rest := by
  rw [skipInside, h.skipSpace_cons hs]
  exact if_pos rfl

theorem skipBehind_close (h : Blank space) (hs : Byte.isSpace close = false)
    (hc : close ≠ Byte.comma) (rest : List UInt8) :
    skipBehind close atEnd expected items (space ++ close :: rest) = .ok rest := by
  rw [skipBehind, h.skipSpace_cons hs]
  simp [hc]

theorem skipBehind_comma (h : Blank space) (s : List UInt8) :
    skipBehind close atEnd expected items (space ++ Byte.comma :: s) = items s := by
  rw [skipBehind, h.skipSpace_append, skipSpace_cons_of_not_space _ (by decide)]
  exact if_pos rfl

end Behind

/-- How a part of a document is stepped over at a depth of two for each of its bytes. -/
def Stepped : Part → List UInt8 → Prop
  | .value _, text => ∀ depth rest, 2 * text.length ≤ depth → Stops rest →
    skipWithin depth (text ++ rest) = .ok rest
  | .items _, text => ∀ depth rest, 2 * text.length < depth →
    skipElements depth (text ++ Byte.closeBracket :: rest) = .ok rest
  | .behindItem _, text => ∀ depth rest, 2 * text.length ≤ depth →
    skipBehind Byte.closeBracket .endInList .expectedListCommaOrEnd (skipElements depth)
      (text ++ Byte.closeBracket :: rest) = .ok rest
  | .member _, text => ∀ depth rest, 2 * text.length ≤ depth → Stops rest →
    (skipName (text ++ rest) >>= skipWithin depth) = .ok rest
  | .members _, text => ∀ depth rest, 2 * text.length < depth →
    skipMembers depth (text ++ Byte.closeBrace :: rest) = .ok rest
  | .behindMember _, text => ∀ depth rest, 2 * text.length ≤ depth →
    skipBehind Byte.closeBrace .endInObject .expectedObjectCommaOrEnd (skipMembers depth)
      (text ++ Byte.closeBrace :: rest) = .ok rest

theorem stepped_scalar {v : Document} {b : UInt8} {more : List UInt8} (hs : Byte.isSpace b = false)
    (hl : b ≠ Byte.openBracket) (ho : b ≠ Byte.openBrace)
    (h : ∀ rest, Stops rest → skipScalar (b :: more ++ rest) = .ok rest) :
    Stepped (.value v) (b :: more) := by
  intro depth rest hd hr
  cases depth with
  | zero => simp at hd
  | succ depth =>
    rw [skipWithin, List.cons_append, skipSpace_cons_of_not_space _ hs]
    split
    · next he => exact absurd (List.cons.inj he).1 hl
    · next he => exact absurd (List.cons.inj he).1 ho
    · exact h rest hr

theorem stepped_number (n : Numeral) : Stepped (.value (.number n)) n.text := by
  have hn : ∀ rest, Stops rest → skipScalar (n.text ++ rest) = .ok rest :=
    fun _ hr => n.skipScalar_text hr
  obtain ⟨b, more, hm, hb⟩ := n.exists_cons
  have hd : ∀ c, c ≠ Byte.minus → Byte.isDigit c = false → b ≠ c := by
    rintro c hc hf rfl
    simp [hc, hf] at hb
  rw [hm] at hn ⊢
  have hs : isStop b = false := by
    rcases hb with rfl | hb
    · decide
    · exact isStop_of_isDigit hb
  exact stepped_scalar (isSpace_of_isStop hs) (hd _ (by decide) (by decide))
    (hd _ (by decide) (by decide)) hn

theorem stepped_string {s : String} {text : List UInt8} (h : SpellsText s.toList text) :
    Stepped (.value (.string s)) (Byte.quote :: (text ++ [Byte.quote])) := by
  apply stepped_scalar (by decide) (by decide) (by decide)
  intro rest _
  rw [enclosed_append]
  exact h.skipString rest

theorem skipWithin_list (depth : Nat) (s : List UInt8) :
    skipWithin (depth + 1) (Byte.openBracket :: s) =
      skipInside Byte.closeBracket .endInList (skipElements depth) s := rfl

theorem skipWithin_object (depth : Nat) (s : List UInt8) :
    skipWithin (depth + 1) (Byte.openBrace :: s) =
      skipInside Byte.closeBrace .endInObject (skipMembers depth) s := rfl

theorem stepped_emptyList {space : List UInt8} (h : Blank space) :
    Stepped (.value (.list [])) (Byte.openBracket :: (space ++ [Byte.closeBracket])) := by
  intro depth rest hd _
  simp only [List.length_cons] at hd
  obtain ⟨depth, rfl⟩ : ∃ n, depth = n + 1 := ⟨depth - 1, by omega⟩
  rw [enclosed_append, skipWithin_list]
  exact skipInside_close h (by decide) rest

theorem stepped_list {vs : List Document} {text : List UInt8} (h : Spells (.items vs) text)
    (ih : Stepped (.items vs) text) :
    Stepped (.value (.list vs)) (Byte.openBracket :: (text ++ [Byte.closeBracket])) := by
  intro depth rest hd _
  simp only [List.length_cons, List.length_append, List.length_nil] at hd
  obtain ⟨depth, rfl⟩ : ∃ n, depth = n + 3 := ⟨depth - 3, by omega⟩
  have hi := ih (depth + 2) rest (by omega)
  rw [← skipElements_skipSpace] at hi
  obtain ⟨b, more, hs, hb⟩ := h.skipSpace_items (Byte.closeBracket :: rest)
  have hne : b ≠ Byte.closeBracket := ne_of_isStop_eq_false hb (by decide)
  rw [enclosed_append, skipWithin_list, skipInside]
  rw [hs] at hi ⊢
  simpa [hne] using hi

theorem stepped_emptyObject {space : List UInt8} (h : Blank space) :
    Stepped (.value (.object [])) (Byte.openBrace :: (space ++ [Byte.closeBrace])) := by
  intro depth rest hd _
  simp only [List.length_cons] at hd
  obtain ⟨depth, rfl⟩ : ∃ n, depth = n + 1 := ⟨depth - 1, by omega⟩
  rw [enclosed_append, skipWithin_object]
  exact skipInside_close h (by decide) rest

theorem stepped_object {ms : List (String × Document)} {text : List UInt8}
    (h : Spells (.members ms) text) (ih : Stepped (.members ms) text) :
    Stepped (.value (.object ms)) (Byte.openBrace :: (text ++ [Byte.closeBrace])) := by
  intro depth rest hd _
  simp only [List.length_cons, List.length_append, List.length_nil] at hd
  obtain ⟨depth, rfl⟩ : ∃ n, depth = n + 2 := ⟨depth - 2, by omega⟩
  have hi := ih (depth + 1) rest (by omega)
  rw [← skipMembers_skipSpace] at hi
  obtain ⟨more, hs⟩ := h.skipSpace_members (Byte.closeBrace :: rest)
  rw [enclosed_append, skipWithin_object, skipInside]
  rw [hs] at hi ⊢
  exact hi

theorem stepped_items {v : Document} {vs : List Document} {space text more : List UInt8}
    (hspace : Blank space) (hv : Spells (.value v) text) (hvs : Spells (.behindItem vs) more)
    (ihv : Stepped (.value v) text) (ihvs : Stepped (.behindItem vs) more) :
    Stepped (.items (v :: vs)) (space ++ (text ++ more)) := by
  intro depth rest hd
  simp only [List.length_append] at hd
  have hl := hv.length_pos
  obtain ⟨depth, rfl⟩ : ∃ n, depth = n + 2 := ⟨depth - 2, by omega⟩
  have h₁ := ihv (depth + 1) (more ++ Byte.closeBracket :: rest) (by omega)
    (hvs.stops_behindItem (stops_cons.mpr (by decide)))
  have h₂ := ihvs (depth + 1) rest (by omega)
  rw [List.append_assoc, List.append_assoc, skipElements, hspace.skipWithin_append, h₁]
  exact h₂

theorem stepped_member {name : String} {v : Document} {key before after text : List UInt8}
    (hkey : SpellsText name.toList key) (hbefore : Blank before) (hafter : Blank after)
    (ih : Stepped (.value v) text) :
    Stepped (.member (name, v))
      (Byte.quote :: (key ++ Byte.quote :: (before ++ Byte.colon :: (after ++ text)))) := by
  intro depth rest hd hr
  simp only [List.length_cons, List.length_append] at hd
  have h₁ := ih depth rest (by omega) hr
  obtain ⟨depth, rfl⟩ : ∃ n, depth = n + 1 := ⟨depth - 1, by omega⟩
  simp only [List.cons_append, List.append_assoc]
  rw [skipName_member hkey hbefore]
  change skipWithin _ _ = _
  rw [hafter.skipWithin_append, h₁]

theorem stepped_members {m : String × Document} {ms : List (String × Document)}
    {space text more : List UInt8} (hspace : Blank space) (hms : Spells (.behindMember ms) more)
    (ihm : Stepped (.member m) text) (ihms : Stepped (.behindMember ms) more) :
    Stepped (.members (m :: ms)) (space ++ (text ++ more)) := by
  intro depth rest hd
  simp only [List.length_append] at hd
  obtain ⟨depth, rfl⟩ : ∃ n, depth = n + 1 := ⟨depth - 1, by omega⟩
  have h₁ := ihm depth (more ++ Byte.closeBrace :: rest) (by omega)
    (hms.stops_behindMember (stops_cons.mpr (by decide)))
  have h₂ := ihms depth rest (by omega)
  rw [List.append_assoc, List.append_assoc, skipMembers, hspace.skipName_append, ← bind_assoc, h₁]
  exact h₂

/-- Every part of a document is stepped over, by induction on how it is spelled. -/
theorem stepped {p : Part} {text : List UInt8} (h : Spells p text) : Stepped p text := by
  induction h with
  | null =>
    apply stepped_scalar (by decide) (by decide) (by decide)
    intro rest _
    exact skipScalar_null rest
  | boolean b =>
    cases b with
    | true =>
      apply stepped_scalar (by decide) (by decide) (by decide)
      intro rest _
      exact skipScalar_boolean true rest
    | false =>
      apply stepped_scalar (by decide) (by decide) (by decide)
      intro rest _
      exact skipScalar_boolean false rest
  | number n => exact stepped_number n
  | string h => exact stepped_string h
  | emptyList h => exact stepped_emptyList h
  | list h ih => exact stepped_list h ih
  | emptyObject h => exact stepped_emptyObject h
  | object h ih => exact stepped_object h ih
  | items hspace hv hvs ihv ihvs => exact stepped_items hspace hv hvs ihv ihvs
  | lastItem h =>
    intro depth rest _
    exact skipBehind_close h (by decide) (by decide) rest
  | nextItem hspace h ih =>
    intro depth rest hd
    simp only [List.length_append, List.length_cons] at hd
    rw [List.append_assoc, List.cons_append, skipBehind_comma hspace]
    exact ih depth rest (by omega)
  | member hkey hbefore hafter hv ih => exact stepped_member hkey hbefore hafter ih
  | members hspace hm hms ihm ihms => exact stepped_members hspace hms ihm ihms
  | lastMember h =>
    intro depth rest _
    exact skipBehind_close h (by decide) (by decide) rest
  | nextMember hspace h ih =>
    intro depth rest hd
    simp only [List.length_append, List.length_cons] at hd
    rw [List.append_assoc, List.cons_append, skipBehind_comma hspace]
    exact ih depth rest (by omega)

/-- A spelled value is stepped over as a whole, with the blanks in front of it. -/
theorem Document.Spells.skipValue {v : Document} {text before rest : List UInt8}
    (h : Spells (.value v) text) (hb : Blank before) (hr : Stops rest) :
    skipValue (before ++ (text ++ rest)) = .ok rest := by
  rw [Json.skipValue, hb.skipWithin_append]
  apply stepped h _ _ _ hr
  simp only [List.length_append]
  omega

end Json
end FaultCodec
