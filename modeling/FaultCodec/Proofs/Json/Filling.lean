import FaultCodec.Proofs.Json.Layout

/-!
# Record readers fill layouts

The members of an object are read one after the other, and each does to the draft what it means. The
items of a list are read into the fields in their order. A record reader therefore gives just the
records that a document makes, whatever way the document is spelled.
-/

namespace FaultCodec
namespace Json
namespace Layout

open Document (Spells)

variable {σ α : Type} {r : Record σ α} {l : Layout r} {s : Slot σ} {d e : σ} {name : String}
  {v : Document} {ms : List (String × Document)}

/-! ## Objects -/

theorem find?_eq_none (l : Layout r) (h : ∀ s ∈ l.slots, s.name ≠ name) :
    r.fields.find? (·.name = name) = none := by
  rw [l.fields_eq, List.find?_eq_none]
  intro f hf
  obtain ⟨s, hs, rfl⟩ := List.mem_map.mp hf
  exact fun hn => h s hs (of_decide_eq_true hn)

theorem find?_eq_some (l : Layout r) (hs : s ∈ l.slots) :
    r.fields.find? (·.name = s.name) = some s.field := by
  cases hf : r.fields.find? (·.name = s.name) with
  | none =>
    rw [l.fields_eq, List.find?_eq_none] at hf
    exact absurd (decide_eq_true rfl) (hf s.field (List.mem_map_of_mem hs))
  | some f =>
    have hn : f.name = s.name := by simpa using List.find?_some hf
    have hm := List.mem_of_find?_eq_some hf
    rw [l.fields_eq] at hm
    obtain ⟨t, ht, rfl⟩ := List.mem_map.mp hm
    obtain rfl := l.eq_of_name ht hs hn
    rfl

section Member

variable {before after text rest : List UInt8}

theorem readMember_eq_ok_iff (l : Layout r) (name : String) (hbefore : Blank before)
    (hafter : Blank after) (hv : Spells (.value v) text) (hr : Stops rest) (d e : σ)
    (s : List UInt8) :
    r.readMember d name (before ++ Byte.colon :: (after ++ (text ++ rest))) = .ok (e, s) ↔
      s = rest ∧ l.Step d (name, v) e := by
  have hcolon := expectColon_append_of_space hbefore (after ++ (text ++ rest))
  by_cases hk : ∃ t ∈ l.slots, t.name = name
  · obtain ⟨t, ht, rfl⟩ := hk
    rw [step_known ht, Record.readMember, l.find?_eq_some ht]
    dsimp only
    -- a filled slot refuses the member, and no step goes that way
    by_cases hd : t.field.isSet d = true
    · rw [if_pos hd]
      constructor
      · intro h
        cases h
      · rintro ⟨_, hn, _⟩
        simp [Slot.field, hn] at hd
    · rw [if_neg hd, hcolon]
      have hn : t.get d = none := Option.not_isSome_iff_eq_none.mp hd
      simp only [hn, true_and]
      exact t.decides_field d hv hafter hr e s
  · have hk : ∀ t ∈ l.slots, t.name ≠ name := fun t ht hn => hk ⟨t, ht, hn⟩
    rw [step_unknown hk, Record.readMember, l.find?_eq_none hk]
    change (expectColon _ >>= fun value => skipValue value >>= fun rest => .ok (d, rest)) = _ ↔ _
    rw [hcolon]
    change (skipValue _ >>= _) = _ ↔ _
    rw [hv.skipValue hafter hr]
    simp [bind, Except.bind, eq_comm, and_comm]

end Member

theorem length_le_of_behindMember {text : List UInt8} (h : Spells (.behindMember ms) text) :
    ms.length ≤ text.length := by
  induction ms generalizing text with
  | nil => exact Nat.zero_le _
  | cons m ms ih =>
    cases h with
    | nextMember _ h =>
      cases h with
      | members _ _ hms =>
        have hl := ih hms
        simp only [List.length_append, List.length_cons]
        omega

theorem passComma_members {text rest : List UInt8} (h : Spells (.members ms) text) :
    Record.passComma Byte.closeBrace (text ++ rest) = .ok (skipSpace (text ++ rest)) := by
  obtain ⟨more, hs⟩ := h.skipSpace_members rest
  rw [Record.passComma, hs]
  exact if_neg (by decide)

/-- The members are read one after the other, by induction on them. -/
theorem readMembers_eq_ok_iff (l : Layout r) {text : List UInt8} (h : Spells (.members ms) text)
    {bound : Nat} (hb : ms.length ≤ bound) (rest s : List UInt8) :
    r.readMembers bound d (skipSpace (text ++ Byte.closeBrace :: rest)) = .ok (e, s) ↔
      s = rest ∧ l.Run d ms e := by
  induction ms generalizing text bound d with
  | nil => cases h
  | cons m ms ih =>
    obtain ⟨bound, rfl⟩ := Nat.exists_eq_succ_of_ne_zero (Nat.ne_zero_of_lt hb)
    have hlen : ms.length ≤ bound := Nat.le_of_succ_le_succ hb
    cases h with
    | @members _ _ space inner behind hspace hm hms =>
      cases hm with
      | @member name v key before after text hkey hbefore hafter hv =>
        -- the value may be a number, which ends only in front of certain bytes
        have hstop : Stops (behind ++ Byte.closeBrace :: rest) :=
          hms.stops_behindMember (stops_cons.mpr (by decide))
        have hmember := l.readMember_eq_ok_iff name hbefore hafter hv hstop d
        rw [skipSpace_member hspace, run_cons]
        change (readString _ >>= _) = _ ↔ _
        rw [hkey.readString]
        change (r.readMember d name _ >>= _) = _ ↔ _
        constructor
        · intro hr
          obtain ⟨⟨f, s₁⟩, hf, he⟩ := bind_eq_ok.mp hr
          obtain ⟨rfl, hstep⟩ := (hmember f s₁).mp hf
          dsimp only at he
          cases hms with
          | lastMember h =>
            rw [h.skipSpace_closeBrace] at he
            cases he
            exact ⟨rfl, e, hstep, .nil⟩
          | nextMember h hms =>
            rw [h.skipSpace_comma] at he
            obtain ⟨_, hc, hnext⟩ := bind_eq_ok.mp he
            rw [passComma_members hms] at hc
            cases hc
            obtain ⟨rfl, hrun⟩ := (ih hms hlen).mp hnext
            exact ⟨rfl, f, hstep, hrun⟩
        · rintro ⟨rfl, f, hstep, hrun⟩
          refine bind_eq_ok.mpr ⟨_, (hmember f _).mpr ⟨rfl, hstep⟩, ?_⟩
          dsimp only
          cases hms with
          | lastMember h =>
            cases hrun
            rw [h.skipSpace_closeBrace]
            rfl
          | nextMember h hms =>
            rw [h.skipSpace_comma]
            exact bind_eq_ok.mpr ⟨_, passComma_members hms, (ih hms hlen).mpr ⟨rfl, hrun⟩⟩

/-- A first member takes a byte more than the others. -/
theorem length_le_skipSpace_members {text : List UInt8} (h : Spells (.members ms) text)
    (rest : List UInt8) : ms.length ≤ (skipSpace (text ++ rest)).length := by
  cases h with
  | members hspace hm hms =>
    cases hm with
    | member hkey hbefore hafter hv =>
      have hl := length_le_of_behindMember hms
      rw [skipSpace_member hspace]
      simp only [List.length_append, List.length_cons]
      omega

theorem readObject_empty (l : Layout r) {space : List UInt8} (h : Blank space)
    (rest s : List UInt8) :
    r.readObject (space ++ Byte.closeBrace :: rest) = .ok (e, s) ↔
      s = rest ∧ l.Run r.blank [] e := by
  rw [Record.readObject, h.skipSpace_closeBrace, run_nil]
  change Except.ok (r.blank, rest) = _ ↔ _
  simp [eq_comm, and_comm]

theorem readObject_eq_ok_iff (l : Layout r) {text : List UInt8} (h : Spells (.members ms) text)
    (rest s : List UInt8) :
    r.readObject (text ++ Byte.closeBrace :: rest) = .ok (e, s) ↔
      s = rest ∧ l.Run r.blank ms e := by
  have hl := length_le_skipSpace_members h (Byte.closeBrace :: rest)
  rw [← l.readMembers_eq_ok_iff h (Nat.le_succ_of_le hl)]
  obtain ⟨more, hs⟩ := h.skipSpace_members (Byte.closeBrace :: rest)
  rw [Record.readObject, hs]
  rfl

/-! ## Lists -/

section List

variable {vs : List Document} {space text rest : List UInt8}

theorem endList_last (h : Blank space) :
    Record.endList (space ++ Byte.closeBracket :: rest) = .ok rest := by
  rw [Record.endList, h.skipSpace_closeBracket]
  rfl

theorem endList_next_ne_ok (h : Blank space) (s : List UInt8) :
    Record.endList (space ++ Byte.comma :: text ++ rest) ≠ .ok s := by
  intro he
  rw [Record.endList, h.skipSpace_comma] at he
  split at he
  · next hc => exact absurd (List.cons.inj hc).1 (by decide)
  · split at he <;> cases he
  · cases he
  · cases he

theorem endList_items_ne_ok (h : Spells (.items vs) text) (s : List UInt8) :
    Record.endList (text ++ rest) ≠ .ok s := by
  obtain ⟨b, more, hs, hb⟩ := h.skipSpace_items rest
  rw [Record.endList, hs]
  split
  · next he => exact absurd (List.cons.inj he).1 (ne_of_isStop_eq_false hb (by decide))
  · next he => exact absurd (List.cons.inj he).1 (ne_of_isStop_eq_false hb (by decide))
  · next he => cases he
  · nofun

theorem passComma_items (h : Spells (.items vs) text) :
    Record.passComma Byte.closeBracket (text ++ rest) = .ok (skipSpace (text ++ rest)) := by
  obtain ⟨b, more, hs, hb⟩ := h.skipSpace_items rest
  have hne : b ≠ Byte.closeBracket := ne_of_isStop_eq_false hb (by decide)
  rw [Record.passComma, hs]
  exact if_neg hne

theorem readElements_first (h : Spells (.items vs) text) (f : Field σ) (fields : List (Field σ)) :
    Record.readElements (f :: fields) true d (text ++ rest) =
      f.read d (skipSpace (text ++ rest)) >>=
        fun x => Record.readElements fields false x.1 x.2 := by
  obtain ⟨b, more, hs, hb⟩ := h.skipSpace_items rest
  rw [Record.readElements, hs]
  split
  · next he => exact absurd (List.cons.inj he).1 (ne_of_isStop_eq_false hb (by decide))
  · next he => cases he
  · rfl

theorem readElements_next (hspace : Blank space) (h : Spells (.items vs) text) (f : Field σ)
    (fields : List (Field σ)) :
    Record.readElements (f :: fields) false d (space ++ Byte.comma :: text ++ rest) =
      f.read d (skipSpace (text ++ rest)) >>=
        fun x => Record.readElements fields false x.1 x.2 := by
  rw [Record.readElements, hspace.skipSpace_comma]
  change (Record.passComma Byte.closeBracket _ >>= _) = _
  rw [passComma_items h]
  rfl

/-- What reading the elements and the end of a list gives. -/
def ReadsList (slots : List (Slot σ)) (first : Bool) (d : σ) (text : List UInt8) (e : σ)
    (s : List UInt8) : Prop :=
  ∃ more, Record.readElements (slots.map Slot.field) first d text = .ok (e, more) ∧
    Record.endList more = .ok s

theorem readsList_last (h : Blank space) (slots : List (Slot σ)) (first : Bool) (t : List UInt8) :
    ReadsList slots first d (space ++ Byte.closeBracket :: rest) e t ↔ t = rest ∧ e = d := by
  cases slots with
  | nil =>
    constructor
    · rintro ⟨more, he, ht⟩
      cases he
      rw [endList_last h] at ht
      cases ht
      exact ⟨rfl, rfl⟩
    · rintro ⟨rfl, rfl⟩
      exact ⟨_, rfl, endList_last h⟩
  | cons s slots =>
    have hr : Record.readElements ((s :: slots).map Slot.field) first d
        (space ++ Byte.closeBracket :: rest) = .ok (d, Byte.closeBracket :: rest) := by
      rw [List.map_cons, Record.readElements, h.skipSpace_closeBracket]
      rfl
    rw [ReadsList, hr]
    constructor
    · rintro ⟨more, he, ht⟩
      cases he
      rw [← List.nil_append (Byte.closeBracket :: rest), endList_last blank_nil] at ht
      cases ht
      exact ⟨rfl, rfl⟩
    · rintro ⟨rfl, rfl⟩
      exact ⟨_, rfl, endList_last blank_nil⟩

/-- A slot takes an item and the slots behind it take what stands behind the item. -/
theorem reads_item {slots : List (Slot σ)} {t : List UInt8} (h : Spells (.items vs) text)
    (hnext : ∀ {d : σ} {vs : List Document} {text : List UInt8}, Spells (.behindItem vs) text →
      (ReadsList slots false d (text ++ Byte.closeBracket :: rest) e t ↔
        t = rest ∧ Fills slots d vs e)) :
    (∃ more, (s.field.read d (skipSpace (text ++ Byte.closeBracket :: rest)) >>=
        fun x => Record.readElements (slots.map Slot.field) false x.1 x.2) = .ok (e, more) ∧
        Record.endList more = .ok t) ↔
      t = rest ∧ Fills (s :: slots) d vs e := by
  cases h with
  | @items v vs space text more hspace hv hvs =>
    have hstop : Stops (more ++ Byte.closeBracket :: rest) :=
      hvs.stops_behindItem (stops_cons.mpr (by decide))
    have hread := (s.decides_field d).value hv hstop
    rw [List.append_assoc, List.append_assoc, hspace.skipSpace_append, hv.skipSpace_append,
      fills_cons]
    constructor
    · rintro ⟨last, hr, ht⟩
      obtain ⟨⟨f, s₁⟩, hf, he⟩ := bind_eq_ok.mp hr
      obtain ⟨rfl, htakes⟩ := (hread f s₁).mp hf
      obtain ⟨rfl, hfills⟩ := (hnext hvs).mp ⟨last, he, ht⟩
      exact ⟨rfl, f, htakes, hfills⟩
    · rintro ⟨rfl, f, htakes, hfills⟩
      obtain ⟨last, he, ht⟩ := (hnext hvs).mpr ⟨rfl, hfills⟩
      exact ⟨last, bind_eq_ok.mpr ⟨_, (hread f _).mpr ⟨rfl, htakes⟩, he⟩, ht⟩

theorem readsList_behind {slots : List (Slot σ)} (h : Spells (.behindItem vs) text)
    (t : List UInt8) : ReadsList slots false d (text ++ Byte.closeBracket :: rest) e t ↔
      t = rest ∧ Fills slots d vs e := by
  induction slots generalizing d vs text with
  | nil =>
    cases h with
    | lastItem h => rw [readsList_last h, fills_nil]
    | nextItem hspace h =>
      constructor
      · rintro ⟨more, he, ht⟩
        cases he
        exact absurd ht (endList_next_ne_ok hspace t)
      · rintro ⟨_, hf⟩
        cases h with
        | items _ _ _ => cases hf
  | cons s slots ih =>
    cases h with
    | lastItem h => rw [readsList_last h, fills_nil]
    | nextItem hspace h =>
      rw [ReadsList, List.map_cons, readElements_next hspace h]
      exact reads_item h fun h => ih h

theorem readsList_items {slots : List (Slot σ)} (h : Spells (.items vs) text) (t : List UInt8) :
    ReadsList slots true d (text ++ Byte.closeBracket :: rest) e t ↔
      t = rest ∧ Fills slots d vs e := by
  cases slots with
  | nil =>
    constructor
    · rintro ⟨more, he, ht⟩
      cases he
      exact absurd ht (endList_items_ne_ok h t)
    · rintro ⟨_, hf⟩
      cases h with
      | items _ _ _ => cases hf
  | cons s slots =>
    rw [ReadsList, List.map_cons, readElements_first h]
    exact reads_item h fun h => readsList_behind h t

end List

/-! ## Records -/

theorem finish_object (l : Layout r) {text rest : List UInt8}
    (hread : ∀ d s, r.readObject text = .ok (d, s) ↔ s = rest ∧ l.Run r.blank ms d) (a : α)
    (s : List UInt8) :
    r.read (Byte.openBrace :: text) = .ok (a, s) ↔ s = rest ∧ l.Makes (.object ms) a := by
  change (r.readObject text >>= _) = _ ↔ _
  rw [makes_object]
  constructor
  · intro h
    obtain ⟨⟨d, t⟩, hd, he⟩ := bind_eq_ok.mp h
    obtain ⟨rfl, hrun⟩ := (hread d t).mp hd
    dsimp only at he
    split at he
    · next b hb =>
      cases he
      exact ⟨rfl, d, hrun, hb⟩
    · cases he
  · rintro ⟨rfl, d, hrun, hd⟩
    refine bind_eq_ok.mpr ⟨_, (hread d s).mpr ⟨rfl, hrun⟩, ?_⟩
    dsimp only
    rw [hd]

theorem finish_list (l : Layout r) {vs : List Document} {text rest : List UInt8}
    (hread : ∀ d s, ReadsList l.slots true r.blank text d s ↔ s = rest ∧ Fills l.slots r.blank vs d)
    (a : α) (s : List UInt8) :
    r.read (Byte.openBracket :: text) = .ok (a, s) ↔ s = rest ∧ l.Makes (.list vs) a := by
  simp only [ReadsList, ← l.fields_eq] at hread
  change (Record.readElements r.fields true r.blank text >>= _) = _ ↔ _
  rw [makes_list]
  constructor
  · intro h
    obtain ⟨⟨d, t⟩, hd, he⟩ := bind_eq_ok.mp h
    obtain ⟨u, hu, he⟩ := bind_eq_ok.mp he
    obtain ⟨rfl, hfills⟩ := (hread d u).mp ⟨t, hd, hu⟩
    split at he
    · next b hb =>
      cases he
      exact ⟨rfl, d, hfills, hb⟩
    · cases he
  · rintro ⟨rfl, d, hfills, hd⟩
    obtain ⟨more, he, hs⟩ := (hread d s).mpr ⟨rfl, hfills⟩
    refine bind_eq_ok.mpr ⟨_, he, bind_eq_ok.mpr ⟨_, hs, ?_⟩⟩
    rw [hd]

/-- A record reader gives just the records that a document makes, whatever way it is spelled. -/
theorem decides (l : Layout r) : Decides r.read l.Makes := by
  intro v text before rest h hb hr a s
  rw [Record.read_append_of_space hb]
  by_cases ho : v.startsWith Byte.openBrace = true
  · obtain ⟨ms, rfl⟩ := Document.eq_object_of_startsWith ho
    cases h with
    | emptyObject h =>
      rw [enclosed_append]
      exact l.finish_object (fun d t => l.readObject_empty h rest t) a s
    | object h =>
      rw [enclosed_append]
      exact l.finish_object (fun d t => l.readObject_eq_ok_iff h rest t) a s
  · by_cases hl : v.startsWith Byte.openBracket = true
    · obtain ⟨vs, rfl⟩ := Document.eq_list_of_startsWith hl
      cases h with
      | emptyList h =>
        rw [enclosed_append]
        apply l.finish_list
        intro d t
        rw [readsList_last h, fills_nil]
      | list h =>
        rw [enclosed_append]
        exact l.finish_list (fun d t => readsList_items h t) a s
    · constructor
      · rw [Record.read, h.skipSpace_append]
        obtain ⟨b, inner, rfl, hs⟩ := h.exists_cons
        rw [List.cons_append]
        split
        · next he =>
          cases he
          exact absurd hs ho
        · next he =>
          cases he
          exact absurd hs hl
        · next he => cases he
        · exact fun h => absurd h (refuse_ne_ok _ _ _)
      · rintro ⟨_, hm⟩
        cases hm with
        | object _ _ => exact absurd rfl ho
        | list _ _ => exact absurd rfl hl

end Layout
end Json
end FaultCodec
