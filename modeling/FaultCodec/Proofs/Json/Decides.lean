import FaultCodec.Proofs.Json.Closed
import FaultCodec.Proofs.Json.Stepping

/-!
# Readers decide what documents mean

A reader decides a relation between documents and results if, whatever way a document is spelled and
whatever may stand behind it, the reader takes just this spelling and gives a result that the
document has, and fails where the document has none. No reader then depends on how a document is
written.
-/

namespace FaultCodec
namespace Json

open Document (Spells Spelled)
open Text

variable {α β : Type}

/-- The reader gives a result of the document that stands next, if it has one. -/
def Decides (read : Reader α) (Means : Document → α → Prop) : Prop :=
  ∀ ⦃v : Document⦄ ⦃text before rest : List UInt8⦄, Spells (.value v) text → Blank before →
    Stops rest → ∀ a more, read (before ++ (text ++ rest)) = .ok (a, more) ↔ more = rest ∧ Means v a

theorem Decides.value {read : Reader α} {Means : Document → α → Prop} (h : Decides read Means)
    {v : Document} {text rest : List UInt8} (hv : Spells (.value v) text) (hr : Stops rest) (a : α)
    (more : List UInt8) : read (text ++ rest) = .ok (a, more) ↔ more = rest ∧ Means v a :=
  h hv blank_nil hr a more

/-- Blanks may stand on both sides of a document that is read as a whole. -/
theorem Decides.parse {read : Reader α} {Means : Document → α → Prop} (h : Decides read Means)
    {v : Document} {text : List UInt8} (hv : Spelled v text) (a : α) :
    parse read text = .ok a ↔ Means v a := by
  obtain ⟨before, inner, after, hb, hs, ha, rfl⟩ := hv
  have hend : skipSpace after = [] := (skipSpace_eq_nil_iff after).mpr ha
  have hstop : Stops after := by
    have hn := ha.stops_append stops_nil
    rwa [List.append_nil] at hn
  have hr := h hs hb hstop
  constructor
  · intro hp
    obtain ⟨⟨x, more⟩, hx, he⟩ := bind_eq_ok.mp hp
    obtain ⟨rfl, hm⟩ := (hr x more).mp hx
    dsimp only at he
    rw [hend] at he
    cases he
    exact hm
  · intro hm
    refine bind_eq_ok.mpr ⟨_, (hr a after).mpr ⟨rfl, hm⟩, ?_⟩
    dsimp only
    rw [hend]

theorem Document.Spelled.ne_nil {v : Document} {text : List UInt8} (h : Spelled v text) :
    text ≠ [] := by
  obtain ⟨before, inner, after, _, hs, _, rfl⟩ := h
  obtain ⟨b, more, rfl, _⟩ := hs.exists_cons
  simp

theorem Decides.into {read : Reader α} {Means : Document → α → Prop} (h : Decides read Means)
    (put : α → β) : Decides (into read put) fun v b => ∃ a, Means v a ∧ put a = b := by
  intro v text before rest hv hb hr b more
  constructor
  · intro hp
    obtain ⟨⟨a, s⟩, ha, he⟩ := bind_eq_ok.mp hp
    obtain ⟨rfl, hm⟩ := (h hv hb hr a s).mp ha
    cases he
    exact ⟨rfl, a, hm, rfl⟩
  · rintro ⟨rfl, a, hm, rfl⟩
    exact bind_eq_ok.mpr ⟨_, (h hv hb hr a more).mpr ⟨rfl, hm⟩, rfl⟩

namespace Document

variable {v : Document} {b : UInt8}

theorem eq_string_of_startsWith (h : v.startsWith Byte.quote = true) : ∃ s, v = .string s := by
  fun_cases startsWith v Byte.quote with
  | case5 s => exact ⟨s, rfl⟩
  | _ => cases h

theorem eq_null_of_startsWith (h : v.startsWith Byte.lowerN = true) : v = .null := by
  fun_cases startsWith v Byte.lowerN with
  | case1 => rfl
  | _ => cases h

theorem eq_object_of_startsWith (h : v.startsWith Byte.openBrace = true) :
    ∃ ms, v = .object ms := by
  fun_cases startsWith v Byte.openBrace with
  | case7 ms => exact ⟨ms, rfl⟩
  | _ => cases h

theorem eq_list_of_startsWith (h : v.startsWith Byte.openBracket = true) : ∃ vs, v = .list vs := by
  fun_cases startsWith v Byte.openBracket with
  | case6 vs => exact ⟨vs, rfl⟩
  | _ => cases h

end Document

theorem decides_readText : Decides readText fun v s => v = .string s := by
  intro v text before rest h hb hr s more
  rw [readText, hb.skipSpace_append, h.skipSpace_append]
  by_cases hv : ∃ t, v = .string t
  · obtain ⟨t, rfl⟩ := hv
    cases h with
    | string h =>
      rw [enclosed_append]
      change readString _ = _ ↔ _
      rw [h.readString]
      simp [eq_comm, and_comm]
  · obtain ⟨b, inner, rfl, hs⟩ := h.exists_cons
    rw [List.cons_append]
    constructor
    · split
      · next he =>
        cases he
        exact absurd (Document.eq_string_of_startsWith hs) hv
      · next he => cases he
      · exact fun h => absurd h (refuse_ne_ok _ _ _)
    · rintro ⟨_, rfl⟩
      exact absurd ⟨s, rfl⟩ hv

theorem decides_readNull {v : Document} {text before rest : List UInt8}
    (h : Spells (.value v) text) (hb : Blank before) (more : List UInt8) :
    readNull (before ++ (text ++ rest)) = .ok more ↔ more = rest ∧ v = .null := by
  rw [readNull, hb.skipSpace_append, h.skipSpace_append]
  by_cases hv : v = .null
  · subst hv
    cases h with
    | null =>
      change expectIdent _ (identTail "ull" ++ rest) = _ ↔ _
      rw [expectIdent_append_self]
      simp [eq_comm]
  · obtain ⟨b, inner, rfl, hs⟩ := h.exists_cons
    rw [List.cons_append]
    constructor
    · split
      · next he =>
        cases he
        exact absurd (Document.eq_null_of_startsWith hs) hv
      · next he => cases he
      · exact fun h => absurd h (refuse_ne_ok _ _ _)
    · rintro ⟨_, rfl⟩
      exact absurd rfl hv

theorem Decides.optional {read : Reader α} {Means : Document → α → Prop} (h : Decides read Means) :
    Decides (readOptional read) fun v o =>
      (v = .null ∧ o = none) ∨ (v ≠ .null ∧ ∃ a, o = some a ∧ Means v a) := by
  intro v text before rest hv hb hr o more
  rw [readOptional, hb.skipSpace_append, hv.skipSpace_append]
  by_cases hn : v = .null
  · subst hn
    cases hv with
    | null =>
      change (expectIdent (identTail "ull") (identTail "ull" ++ rest) >>=
        fun s => .ok (none, s)) = _ ↔ _
      rw [expectIdent_append_self]
      simp [bind, Except.bind, eq_comm, and_comm]
  · have hr := h.value hv hr
    have hl : ∀ s, text ++ rest ≠ Byte.lowerN :: s := by
      intro s he
      obtain ⟨b, inner, rfl, hs⟩ := hv.exists_cons
      cases he
      exact hn (Document.eq_null_of_startsWith hs)
    split
    · next he => exact absurd he (hl _)
    · constructor
      · intro hp
        obtain ⟨⟨a, s⟩, ha, he⟩ := bind_eq_ok.mp hp
        obtain ⟨rfl, hm⟩ := (hr a s).mp ha
        cases he
        exact ⟨rfl, Or.inr ⟨hn, a, rfl, hm⟩⟩
      · rintro ⟨rfl, ⟨hv, _⟩ | ⟨_, a, rfl, hm⟩⟩
        · exact absurd hv hn
        · exact bind_eq_ok.mpr ⟨_, (hr a more).mpr ⟨rfl, hm⟩, rfl⟩

/-! ## Members -/

theorem Document.Spells.blank_behindMember {text : List UInt8}
    (h : Spells (.behindMember []) text) : Blank text := by
  cases h with
  | lastMember h => exact h
  | nextMember _ h => cases h

section Members

variable {name : String} {key space before after text more rest : List UInt8}

theorem skipSpace_member (hspace : Blank space) :
    skipSpace (space ++ (Byte.quote :: (key ++ Byte.quote :: (before ++ Byte.colon ::
      (after ++ text))) ++ more) ++ rest) =
    Byte.quote :: (key ++ Byte.quote :: (before ++ Byte.colon ::
      (after ++ (text ++ (more ++ rest))))) := by
  rw [List.append_assoc, hspace.skipSpace_append]
  simp only [List.cons_append, List.append_assoc]
  exact skipSpace_cons_of_not_space _ (by decide)

end Members

/-! ## Names -/

/-- A name is written as a string or as the only member of an object, with the value `null`. -/
def Document.Names (v : Document) (name : String) : Prop :=
  v = .string name ∨ v = .object [(name, .null)]

section Names

variable {choices : List (String × α)}

theorem readNamed_eq_ok_iff {name : String} {text : List UInt8} (h : SpellsText name.toList text)
    (rest : List UInt8) (a : α) (more : List UInt8) :
    readNamed choices (text ++ Byte.quote :: rest) = .ok (a, more) ↔
      more = rest ∧ choices.lookup name = some a := by
  rw [readNamed, h.readString]
  cases hl : choices.lookup name with
  | none => simp [bind, Except.bind, choose, hl, failAt]
  | some x => simp [bind, Except.bind, choose, hl, eq_comm, and_comm]

theorem readWrapped_eq_ok_iff {ms : List (String × Document)} {text : List UInt8}
    (h : Spells (.members ms) text) (rest : List UInt8) (a : α) (s : List UInt8) :
    readWrapped choices (text ++ Byte.closeBrace :: rest) = .ok (a, s) ↔
      s = rest ∧ ∃ name, choices.lookup name = some a ∧ ms = [(name, .null)] := by
  cases h with
  | @members m ms space inner behind hspace hm hms =>
    cases hm with
    | @member name v key before after text hkey hbefore hafter hv =>
      rw [readWrapped, skipSpace_member hspace]
      change readOnlyMember choices _ = _ ↔ _
      constructor
      · intro hr
        obtain ⟨⟨x, s₁⟩, hx, hr⟩ := bind_eq_ok.mp hr
        obtain ⟨rfl, hl⟩ := (readNamed_eq_ok_iff hkey _ x s₁).mp hx
        obtain ⟨s₂, hc, hr⟩ := bind_eq_ok.mp hr
        rw [expectColon_append_of_space hbefore] at hc
        cases hc
        obtain ⟨s₃, hn, hr⟩ := bind_eq_ok.mp hr
        obtain ⟨rfl, rfl⟩ := (decides_readNull hv hafter s₃).mp hn
        cases hms with
        | lastMember h =>
          rw [h.skipSpace_closeBrace] at hr
          cases hr
          exact ⟨rfl, name, hl, rfl⟩
        | nextMember h _ =>
          rw [h.skipSpace_comma] at hr
          cases hr
      · rintro ⟨rfl, n, hl, he⟩
        cases he
        refine bind_eq_ok.mpr ⟨_, (readNamed_eq_ok_iff hkey _ a _).mpr ⟨rfl, hl⟩, ?_⟩
        refine bind_eq_ok.mpr ⟨_, expectColon_append_of_space hbefore _, ?_⟩
        refine bind_eq_ok.mpr ⟨_, (decides_readNull hv hafter _).mpr ⟨rfl, rfl⟩, ?_⟩
        rw [hms.blank_behindMember.skipSpace_closeBrace]
        rfl

theorem decides_readChoice : Decides (readChoice choices) fun v a =>
    ∃ name, choices.lookup name = some a ∧ v.Names name := by
  intro v text before rest h hb hr a more
  rw [readChoice, hb.skipSpace_append, h.skipSpace_append]
  by_cases hs : v.startsWith Byte.quote = true
  · obtain ⟨name, rfl⟩ := Document.eq_string_of_startsWith hs
    cases h with
    | string h =>
      rw [enclosed_append]
      change readNamed choices _ = _ ↔ _
      rw [readNamed_eq_ok_iff h]
      simp [Document.Names]
  · by_cases ho : v.startsWith Byte.openBrace = true
    · obtain ⟨ms, rfl⟩ := Document.eq_object_of_startsWith ho
      cases h with
      | emptyObject h =>
        rw [enclosed_append]
        change readWrapped choices _ = _ ↔ _
        rw [readWrapped, h.skipSpace_closeBrace]
        constructor
        · nofun
        · rintro ⟨_, _, _, h | h⟩
          · cases h
          · cases h
      | object h =>
        rw [enclosed_append]
        change readWrapped choices _ = _ ↔ _
        rw [readWrapped_eq_ok_iff h]
        simp [Document.Names]
    · obtain ⟨b, inner, rfl, hs'⟩ := h.exists_cons
      rw [List.cons_append]
      constructor
      · split
        · next he =>
          cases he
          exact absurd hs' hs
        · next he =>
          cases he
          exact absurd hs' ho
        · next he => cases he
        · nofun
      · rintro ⟨_, _, _, rfl | rfl⟩
        · exact absurd rfl hs
        · exact absurd rfl ho

/-- Where each choice has a text of its own, the choices are read by their texts. -/
theorem decides_readChoice_of_texts {text : α → String} {all : List α}
    (h : ∀ a, (all.map fun a => (text a, a)).lookup (text a) = some a) :
    Decides (readChoice (all.map fun a => (text a, a))) fun v a => v.Names (text a) := by
  have hl : ∀ name a, (all.map fun a => (text a, a)).lookup name = some a ↔ name = text a := by
    intro name a
    constructor
    · intro hn
      obtain ⟨before, after, he, _⟩ := List.lookup_eq_some_iff.mp hn
      have hm : (name, a) ∈ all.map fun a => (text a, a) := by simp [he]
      obtain ⟨b, _, hb⟩ := List.mem_map.mp hm
      cases hb
      rfl
    · rintro rfl
      exact h a
  have hd : Decides (readChoice (all.map fun a => (text a, a))) _ := decides_readChoice
  simp only [hl, exists_eq_left] at hd
  exact hd

end Names

end Json
end FaultCodec
