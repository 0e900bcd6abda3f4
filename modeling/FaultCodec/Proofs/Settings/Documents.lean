import FaultCodec.Proofs.Json.Editing
import FaultCodec.Proofs.Json.Written
import FaultCodec.Settings.Json

/-!
# The documents of settings

Settings are written as an object, and their section as an object within it. Members may be removed
from both, put into another order and set among unknown ones: the settings that are read from such a
document have the defaults in place of what was removed. Only the address of a section has no
default.
-/

namespace FaultCodec

open Json (Blank Document Layout Slot SpellsText SpellsUnit blank_nil getD_kept kept)
open Json.Document (Spelled Spells named)

namespace RemoteRead

def layout : Layout record where
  slots := [
    .text "address" Draft.address (fun d a => { d with address := some a }) fun _ _ => rfl,
    .unsigned "timeout_secs" "u64" Draft.timeout (fun d n => { d with timeout := some n })
      fun _ _ => rfl,
    .unsigned "keep_alive_secs" "u64" Draft.keepAlive (fun d n => { d with keepAlive := some n })
      fun _ _ => rfl,
    .unsigned "max_idle_conns" "usize" Draft.maxIdleConns
      (fun d n => { d with maxIdleConns := some n }) fun _ _ => rfl,
    .unsigned "max_conns" "usize" Draft.maxConns (fun d n => { d with maxConns := some n })
      fun _ _ => rfl,
    .text "client_name" Draft.clientName (fun d a => { d with clientName := some a })
      fun _ _ => rfl]
  fields_eq := rfl
  nodup := by decide
  apart := by simp [Slot.Apart, Slot.text, Slot.unsigned]
  ext := by
    intro d e h
    cases d
    cases e
    simpa [Slot.text, Slot.unsigned] using h

/-- The section with the defaults in place of the removed fields. The address has none. -/
def without (removed : List String) (r : RemoteRead) : RemoteRead :=
  let standard : RemoteRead := { address := r.address }
  { address := r.address
    timeout := if "timeout_secs" ∈ removed then standard.timeout else r.timeout
    keepAlive := if "keep_alive_secs" ∈ removed then standard.keepAlive else r.keepAlive
    maxIdleConns := if "max_idle_conns" ∈ removed then standard.maxIdleConns else r.maxIdleConns
    maxConns := if "max_conns" ∈ removed then standard.maxConns else r.maxConns
    clientName := if "client_name" ∈ removed then standard.clientName else r.clientName }

def names : List String := record.fields.map Json.Field.name

/-- What a section leaves in a draft if the members of some names are removed. -/
def draft (removed : List String) (r : RemoteRead) : Draft where
  address := kept removed "address" (some r.address)
  timeout := kept removed "timeout_secs" (some r.timeout)
  keepAlive := kept removed "keep_alive_secs" (some r.keepAlive)
  maxIdleConns := kept removed "max_idle_conns" (some r.maxIdleConns)
  maxConns := kept removed "max_conns" (some r.maxConns)
  clientName := kept removed "client_name" (some r.clientName)

variable {r : RemoteRead} {removed : List String}

theorem finish_draft : record.finish (r.draft removed) =
    if "address" ∈ removed then .error "address" else .ok (r.without removed) := by
  by_cases h : "address" ∈ removed
  · simp [record, draft, Draft.finish, kept, h]
  · simp only [record, draft, Draft.finish, without, getD_kept]
    rw [kept, if_neg h, if_neg h]

theorem run_edits {ns : List (String × Document)} {d : Draft}
    (h : r.toJson.document.Edits names removed (.object ns)) :
    layout.Run {} ns d ↔ d = r.draft removed := by
  apply Layout.run_of_finds
  · simp [layout, Slot.text, Slot.unsigned]
  · simp only [layout, List.forall_mem_cons, List.not_mem_nil, IsEmpty.forall_iff, implies_true,
      and_true]
    exact ⟨Slot.finds_edits h (by decide) fun _ => Slot.finds_text rfl,
      Slot.finds_edits h (by decide) fun _ => Slot.finds_unsigned rfl,
      Slot.finds_edits h (by decide) fun _ => Slot.finds_unsigned rfl,
      Slot.finds_edits h (by decide) fun _ => Slot.finds_unsigned rfl,
      Slot.finds_edits h (by decide) fun _ => Slot.finds_unsigned rfl,
      Slot.finds_edits h (by decide) fun _ => Slot.finds_text rfl⟩

/-- A section is read with the defaults in place of what was removed, unless that was the
address. -/
theorem makes_edits {w : Document} (h : r.toJson.document.Edits names removed w) (a : RemoteRead) :
    layout.Makes w a ↔ "address" ∉ removed ∧ a = r.without removed := by
  obtain ⟨ns, rfl⟩ := h.exists_object
  have hr : ∀ d, layout.Run record.blank ns d ↔ d = r.draft removed := fun _ => run_edits h
  simp only [Layout.makes_object, hr, exists_eq_left, finish_draft]
  split_ifs with ha
  · simp [ha]
  · simp [ha, eq_comm]

end RemoteRead

namespace Settings

def logFormatSlot : Slot Draft where
  name := "log_format"
  Value := LogFormat
  read := Json.readChoice LogFormat.choices
  Means := fun v f => v.Names f.name
  get := Draft.logFormat
  put := fun d f => { d with logFormat := some f }
  decides := Json.decides_readChoice_of_texts fun f => by cases f <;> rfl
  get_put := fun _ _ => rfl

def remoteReadSlot : Slot Draft where
  name := "remote_read"
  Value := Option RemoteRead
  read := Json.readOptional RemoteRead.record.read
  Means := fun v o =>
    (v = .null ∧ o = none) ∨ (v ≠ .null ∧ ∃ r, o = some r ∧ RemoteRead.layout.Makes v r)
  get := Draft.remoteRead
  put := fun d o => { d with remoteRead := some o }
  decides := RemoteRead.layout.decides.optional
  get_put := fun _ _ => rfl

def layout : Layout record where
  slots := [
    .text "service_name" Draft.serviceName (fun d a => { d with serviceName := some a })
      fun _ _ => rfl,
    .text "log_level" Draft.logLevel (fun d a => { d with logLevel := some a }) fun _ _ => rfl,
    logFormatSlot,
    remoteReadSlot]
  fields_eq := rfl
  nodup := by decide
  apart := by simp [Slot.Apart, Slot.text, logFormatSlot, remoteReadSlot]
  ext := by
    intro d e h
    cases d
    cases e
    simpa [Slot.text, logFormatSlot, remoteReadSlot] using h

/-- The settings with the defaults in place of the removed fields, and of those of the section. -/
def without (removed inner : List String) (s : Settings) : Settings where
  serviceName := if "service_name" ∈ removed then standard.serviceName else s.serviceName
  logLevel := if "log_level" ∈ removed then standard.logLevel else s.logLevel
  logFormat := if "log_format" ∈ removed then standard.logFormat else s.logFormat
  remoteRead := if "remote_read" ∈ removed then none else s.remoteRead.map (·.without inner)

def names : List String := record.fields.map Json.Field.name

/-- The document of the settings without the members of some names, and with its section without
those of others. Both may have their members in any order, and any others among them. -/
def Edited (s : Settings) (removed inner : List String) (v : Document) : Prop :=
  ∃ w, (∀ r ∈ s.remoteRead, r.toJson.document.Edits RemoteRead.names inner w) ∧
    (s.toJson.document.replace "remote_read" w).Edits names removed v

/-- The section is still there, but not its address. -/
def LacksAddress (s : Settings) (removed inner : List String) : Prop :=
  s.remoteRead.isSome ∧ "remote_read" ∉ removed ∧ "address" ∈ inner

/-- What settings leave in a draft if the members of some names are removed. -/
def draft (removed inner : List String) (s : Settings) : Draft where
  serviceName := kept removed "service_name" (some s.serviceName)
  logLevel := kept removed "log_level" (some s.logLevel)
  logFormat := kept removed "log_format" (some s.logFormat)
  remoteRead := kept removed "remote_read" (s.remoteRead.map fun r => some (r.without inner))

variable {s : Settings} {removed inner : List String}

theorem finish_draft : (s.draft removed inner).finish = s.without removed inner := by
  have hr : (kept removed "remote_read" (s.remoteRead.map fun r => some (r.without inner))).getD
      standard.remoteRead =
      if "remote_read" ∈ removed then none else s.remoteRead.map (·.without inner) := by
    rw [kept]
    split_ifs
    · rfl
    · cases s.remoteRead <;> rfl
  simp only [draft, Draft.finish, without, getD_kept, hr]

section Run

variable {w : Document} {ns : List (String × Document)} {d : Draft}

theorem finds_logFormat {f : LogFormat} {ms : List (String × Document)}
    (h : named "log_format" ms = [.string f.name]) : logFormatSlot.Finds ms (some f) :=
  Slot.finds_some h fun (g : LogFormat) => by
    cases f <;> cases g <;> simp [logFormatSlot, Document.Names, LogFormat.name]

theorem finds_remoteRead {r : RemoteRead} {ms : List (String × Document)}
    (hw : r.toJson.document.Edits RemoteRead.names inner w) (ha : "address" ∉ inner)
    (h : named "remote_read" ms = [w]) :
    remoteReadSlot.Finds ms (some (some (r.without inner))) := by
  refine Slot.finds_some h fun (o : Option RemoteRead) => ?_
  obtain ⟨ns, rfl⟩ := hw.exists_object
  simp [remoteReadSlot, RemoteRead.makes_edits hw, ha]

theorem run_edits (hw : ∀ r ∈ s.remoteRead, r.toJson.document.Edits RemoteRead.names inner w)
    (h : (s.toJson.document.replace "remote_read" w).Edits names removed (.object ns))
    (ha : ¬s.LacksAddress removed inner) : layout.Run {} ns d ↔ d = s.draft removed inner := by
  apply Layout.run_of_finds
  · simp [layout, Slot.text, logFormatSlot, remoteReadSlot]
  · simp only [layout, List.forall_mem_cons, List.not_mem_nil, IsEmpty.forall_iff, implies_true,
      and_true]
    obtain ⟨name, level, format, remote⟩ := s
    cases remote with
    | none =>
      exact ⟨Slot.finds_edits h (by decide) fun _ => Slot.finds_text rfl,
        Slot.finds_edits h (by decide) fun _ => Slot.finds_text rfl,
        Slot.finds_edits h (by decide) fun _ => finds_logFormat rfl,
        Slot.finds_edits h (by decide) fun _ => Slot.finds_none rfl⟩
    | some r =>
      exact ⟨Slot.finds_edits h (by decide) fun _ => Slot.finds_text rfl,
        Slot.finds_edits h (by decide) fun _ => Slot.finds_text rfl,
        Slot.finds_edits h (by decide) fun _ => finds_logFormat rfl,
        Slot.finds_edits h (by decide) fun hr =>
          finds_remoteRead (hw r rfl) (fun hi => ha ⟨rfl, hr, hi⟩) rfl⟩

theorem not_run_edits (hw : ∀ r ∈ s.remoteRead, r.toJson.document.Edits RemoteRead.names inner w)
    (h : (s.toJson.document.replace "remote_read" w).Edits names removed (.object ns))
    (ha : s.LacksAddress removed inner) : ¬layout.Run {} ns d := by
  obtain ⟨hs, hr, hi⟩ := ha
  obtain ⟨name, level, format, remote⟩ := s
  obtain ⟨r, rfl⟩ := Option.isSome_iff_exists.mp hs
  have hw := hw r rfl
  rw [Layout.run_iff]
  intro hrun
  -- the section is the only member of its name, and neither `null` nor read as a section
  refine Slot.not_holds_edits h (by decide) hr rfl ?_ (hrun remoteReadSlot (by simp [layout]))
  rintro (o : Option RemoteRead) (⟨rfl, _⟩ | ⟨_, a, _, hm⟩)
  · cases hw
  · exact ((RemoteRead.makes_edits hw a).mp hm).1 hi

end Run

theorem ofJson_eq_ok_iff {v : Document} {text : List UInt8} (hv : s.Edited removed inner v)
    (ht : Spelled v text) (t : Settings) :
    ofJson text = .ok t ↔ ¬s.LacksAddress removed inner ∧ t = s.without removed inner := by
  obtain ⟨w, hw, h⟩ := hv
  obtain ⟨ns, rfl⟩ := h.exists_object
  rw [ofJson, layout.decides.parse ht, Layout.makes_object]
  by_cases ha : s.LacksAddress removed inner
  · simp only [ha, not_true_eq_false, false_and, iff_false]
    rintro ⟨d, hd, _⟩
    exact not_run_edits hw h ha hd
  · have hr : ∀ d, layout.Run record.blank ns d ↔ d = s.draft removed inner :=
      fun _ => run_edits hw h ha
    have hf : record.finish (s.draft removed inner) = .ok (s.without removed inner) :=
      congrArg Except.ok finish_draft
    simp [hr, hf, ha, eq_comm]

theorem edited_refl (s : Settings) : s.Edited [] [] s.toJson.document := by
  obtain ⟨name, level, format, remote⟩ := s
  cases remote with
  | none => exact ⟨.null, nofun, .refl _⟩
  | some r =>
    refine ⟨r.toJson.document, ?_, .refl _⟩
    rintro _ ⟨rfl⟩
    exact .refl _

theorem without_nil (s : Settings) : s.without [] [] = s := by
  have hr : RemoteRead.without [] = id := by
    funext r
    simp [RemoteRead.without]
  simp [without, hr]

/-- Settings are read back from the text that they are written as. Members may be removed from it,
put into another order and set among unknown ones, in the settings as in their section: the settings
that are read then have the defaults in place of what was removed, and no section if that was
removed. Only a section without its address is refused. -/
theorem ofJson_edited (s : Settings) :
    Spelled s.toJson.document s.toJson.bytes ∧ ofJson s.toJson.bytes = .ok s ∧
    ∀ removed inner v text, s.Edited removed inner v → Spelled v text →
      (s.LacksAddress removed inner → ∃ e, ofJson text = .error e) ∧
      (¬s.LacksAddress removed inner → ofJson text = .ok (s.without removed inner)) := by
  refine ⟨s.toJson.spelled_bytes, ?_,
    fun removed inner v text hv ht => ⟨fun ha => ?_, fun ha => ?_⟩⟩
  · rw [ofJson_eq_ok_iff s.edited_refl s.toJson.spelled_bytes, without_nil]
    exact ⟨fun ha => List.not_mem_nil ha.2.2, rfl⟩
  · cases hr : ofJson text with
    | error e => exact ⟨e, rfl⟩
    | ok t => exact absurd ha ((ofJson_eq_ok_iff hv ht t).mp hr).1
  · exact (ofJson_eq_ok_iff hv ht _).mpr ⟨ha, rfl⟩

/-- A quote in the name, and as many connections as there can be. -/
def crowded : Settings where
  serviceName := "a\"b"
  logFormat := .json
  remoteRead := some { address := "h:1", timeout := 5, maxConns := 18446744073709551615 }

/-- The address and the connections, in the other order. -/
def crowdedSection : Document := .object
  [("max_conns", .number (.ofNat 18446744073709551615)), ("address", .string "h:1")]

/-- An unknown member, the section and the name. -/
def crowdedRest : Document := .object
  [("x", .object []), ("remote_read", crowdedSection), ("service_name", .string "a\"b")]

def crowdedText : List UInt8 := Text.Utf8.bytes
  ("\x7b\"x\":\x7b\x7d, " ++
    "\"remote_read\":\x7b\"max_conns\":18446744073709551615,\"address\":\"h:1\"\x7d," ++
    "\"service_name\":\"a\\u0022b\"\x7d")

theorem edited_crowded : crowded.Edited ["log_level", "log_format"]
    ["timeout_secs", "keep_alive_secs", "max_idle_conns", "client_name"] crowdedRest := by
  have hsection := List.reverse_perm [("address", Document.string "h:1"),
    ("max_conns", .number (.ofNat 18446744073709551615))]
  have hrest := List.reverse_perm [("service_name", Document.string "a\"b"),
    ("remote_read", crowdedSection), ("x", .object [])]
  refine ⟨crowdedSection, ?_, @Document.Edits.object _ _ _ _ [("x", .object [])] ?_ hrest⟩
  · rintro _ ⟨rfl⟩
    refine @Document.Edits.object _ _ _ _ [] ?_ hsection
    nofun
  · simp [names, record]

theorem spelled_crowded : Spelled crowdedRest crowdedText := by
  have hmax : SpellsText "max_conns".toList _ := .of_plain (by decide)
  have haddress : SpellsText "address".toList _ := .of_plain (by decide)
  have hhost : SpellsText "h:1".toList _ := .of_plain (by decide)
  have hsection : Spells (.value crowdedSection) _ :=
    .object (.members blank_nil (.member hmax blank_nil blank_nil (.number _))
      (.nextMember blank_nil (.members blank_nil
        (.member haddress blank_nil blank_nil (.string hhost)) (.lastMember blank_nil))))
  have hx : SpellsText "x".toList _ := .of_plain (by decide)
  have hremote : SpellsText "remote_read".toList _ := .of_plain (by decide)
  have hservice : SpellsText "service_name".toList _ := .of_plain (by decide)
  have hunit : SpellsUnit '"'.toNat _ :=
    @SpellsUnit.digits 0x30 0x30 0x32 0x32 0 0 2 2 rfl rfl rfl rfl
  have htext : SpellsText "a\"b".toList _ :=
    .cons (.plain (by decide) (by decide) (by decide)) (.cons (.unit hunit)
      (.cons (.plain (by decide) (by decide) (by decide)) .nil))
  have hspace : Blank [0x20] := by decide
  have hmembers := Spells.members blank_nil
    (.member hx blank_nil blank_nil (.emptyObject blank_nil))
    (.nextMember blank_nil (.members hspace (.member hremote blank_nil blank_nil hsection)
      (.nextMember blank_nil (.members blank_nil
        (.member hservice blank_nil blank_nil (.string htext)) (.lastMember blank_nil)))))
  exact ⟨[], _, [], blank_nil, .object hmembers, blank_nil, by decide⟩

theorem ofJson_edited_crowded : Spelled crowdedRest crowdedText ∧ ofJson crowdedText = .ok
    { serviceName := "a\"b"
      remoteRead := some { address := "h:1", maxConns := 18446744073709551615 } } := by
  have ha : ¬crowded.LacksAddress ["log_level", "log_format"]
      ["timeout_secs", "keep_alive_secs", "max_idle_conns", "client_name"] := by
    simp [LacksAddress]
  exact ⟨spelled_crowded,
    (crowded.ofJson_edited.2.2 _ _ _ _ edited_crowded spelled_crowded).2 ha⟩

end Settings
end FaultCodec
