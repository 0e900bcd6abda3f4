import FaultCodec.Proofs.Payload.Refusals
import FaultCodec.Proofs.Status.Damage
import FaultCodec.Proofs.Status.Fallback

/-!
# Lines that a peer adds to the log

Whatever the parts of a status are, decoding them raises at most a note that the payload could not
be read and then a warning of the fallback. The warning takes one line of a text log. So does the
note, unless the payload gives an unknown name for its tag: the note shows the name as it is, with
the line feeds in it.
-/

namespace FaultCodec
namespace Status

open Json (HoldsString)
open Log (IsLine lineFeeds lineFeeds_append lineFeeds_eq_zero_iff)
open Payload (Malformed Misnames)

variable {code : Code} {message : String} {bytes : List UInt8} {n : Nat}

/-- Under the condition there is one event, of the level and with so many lines; else there is
none. -/
inductive Logs (level : Log.Level) (lines : Nat) (cond : Prop) : List Log.Event → Prop
  | silent (h : ¬cond) : Logs level lines cond []
  | once {e : Log.Event} (h : cond) (hl : e.level = level) (hn : e.lines.length = lines) :
      Logs level lines cond [e]

/-- Bytes that are not those of a payload are noted, and then a fallback is warned of. The note
takes so many lines, the warning takes one. -/
def LogsLines (noted : Nat) (code : Code) (message : String) (bytes : List UInt8) : Prop :=
  ∃ notes warnings, (decodeParts code message bytes).events = notes ++ warnings ∧
    Logs .debug noted (bytes ≠ [] ∧ Malformed bytes) notes ∧
    Logs .warn 1 (ofParts code message bytes).value.FallsBack warnings

theorem Logs.length_lines {level : Log.Level} {cond : Prop} {events : List Log.Event}
    (h : Logs level n cond events) (hc : cond) :
    (events.flatMap Log.Event.lines).length = n := by
  cases h with
  | silent hn => exact absurd hc hn
  | once _ _ hn => simpa using hn

/-- Bytes that are noted and a fallback make one line more than the note has. -/
theorem LogsLines.length_lines (h : LogsLines n code message bytes)
    (hm : bytes ≠ [] ∧ Malformed bytes) (hf : (ofParts code message bytes).value.FallsBack) :
    ((decodeParts code message bytes).events.flatMap Log.Event.lines).length = n + 1 := by
  obtain ⟨notes, warnings, he, hnotes, hwarnings⟩ := h
  rw [he, List.flatMap_append, List.length_append, hnotes.length_lines hm,
    hwarnings.length_lines hf]

/-! ## The warning -/

theorem events_decode_of_not_fallsBack {s : Status} (h : ¬s.FallsBack) : s.decode.events = [] := by
  by_cases hs : s.code = .ok
  · rw [decode_of_ok hs, Log.Logged.events_quiet]
  · simp only [FallsBack, not_and, not_forall, not_not] at h
    obtain ⟨p, hp, ht⟩ := h hs
    have hc : p.kind.code = s.code := p.code_kind.trans ((s.code.mem_tags_iff p.tag).mp ht)
    rw [decode_of_fits hp hc, Log.Logged.events_quiet]

theorem logs_decode (s : Status) : Logs .warn 1 s.FallsBack s.decode.events := by
  by_cases h : s.FallsBack
  · rw [h.decode]
    exact .once h rfl (by rw [s.lines_fallbackWarning, List.length_singleton])
  · rw [events_decode_of_not_fallsBack h]
    exact .silent h

/-! ## The note -/

theorem length_lines_undecodableNote (code : Code) (bytes : List UInt8) (e : Json.Error) :
    (undecodableNote code bytes e).lines.length = lineFeeds e.problem.message + 1 := by
  have ht : IsLine (undecodableNote code bytes e).target :=
    show IsLine "wirex_status::status" by decide
  have hm : IsLine (undecodableNote code bytes e).message :=
    show IsLine "ignoring undecodable status details" by decide
  have hc : lineFeeds code.name = 0 := by
    cases code <;> decide
  have he : lineFeeds (Payload.malformedMessage bytes e) = lineFeeds e.problem.message := by
    have hp : lineFeeds "malformed status details: " = 0 := by decide
    change lineFeeds ("malformed status details: " ++ e.message bytes) = _
    rw [lineFeeds_append, hp, Json.Error.lineFeeds_message, Nat.zero_add]
  have hcode : lineFeeds "code" = 0 := by decide
  have herror : lineFeeds "error" = 0 := by decide
  rw [Log.Event.length_lines, Log.Event.lineFeeds_text ht hm]
  simp only [undecodableNote, List.map_cons, List.map_nil, List.sum_cons, List.sum_nil,
    Log.Datum.show, hcode, herror, hc, he, Nat.zero_add, Nat.add_zero]

theorem logs_ofParts (code : Code) (message : String)
    (h : ∀ e, Json.parse Payload.read bytes = .error e → lineFeeds e.problem.message + 1 = n) :
    Logs .debug n (bytes ≠ [] ∧ Malformed bytes) (ofParts code message bytes).events := by
  cases ho : Payload.ofBytes bytes with
  | ok o =>
    simp only [ofParts, ho, Log.Logged.events_quiet]
    exact .silent (Payload.not_malformed_of_ofBytes ho)
  | error e =>
    obtain ⟨hb, hp⟩ := Payload.ofBytes_eq_error_iff.mp ho
    rw [ofParts_of_error code message ho]
    refine .once ⟨hb, fun p hr => ?_⟩ rfl ?_
    · cases hp.symm.trans hr
    · rw [length_lines_undecodableNote, h e hp]

theorem logsLines_of_lineFeeds (code : Code) (message : String)
    (h : ∀ e, Json.parse Payload.read bytes = .error e → lineFeeds e.problem.message + 1 = n) :
    LogsLines n code message bytes :=
  ⟨_, _, rfl, logs_ofParts code message h, logs_decode _⟩

theorem logsLines_of_misnames {name : String} (code : Code) (message : String)
    (h : Misnames bytes name) : LogsLines (lineFeeds name + 1) code message bytes := by
  apply logsLines_of_lineFeeds
  intro e he
  rw [h.lineFeeds_message he]

theorem logsLines_of_not_misnames (code : Code) (message : String)
    (h : ∀ name, ¬Misnames bytes name) : LogsLines 1 code message bytes := by
  apply logsLines_of_lineFeeds
  intro e he
  rw [lineFeeds_eq_zero_iff.mpr (Payload.isLine_of_not_misnames he h)]

theorem fallsBack_of_misnames {name : String} (hc : code ≠ .ok) (message : String)
    (h : Misnames bytes name) : (ofParts code message bytes).value.FallsBack := by
  obtain ⟨hb, _⟩ := h.malformed
  obtain ⟨left, he⟩ := h
  rw [ofParts_of_error code message (Payload.ofBytes_eq_error_iff.mpr ⟨hb, he⟩)]
  exact ⟨hc, nofun⟩

theorem length_lines_of_misnames {name : String} (hc : code ≠ .ok) (message : String)
    (h : Misnames bytes name) :
    ((decodeParts code message bytes).events.flatMap Log.Event.lines).length =
      lineFeeds name + 2 :=
  (logsLines_of_misnames code message h).length_lines h.malformed
    (fallsBack_of_misnames hc message h)

/-! ## The message -/

/-- The message has no bearing on whether there is a fallback, and the warning does not show it. -/
theorem events_decode_message (s : Status) (m : String) :
    ({ s with message := m } : Status).decode.events = s.decode.events := by
  by_cases h : s.FallsBack
  · have hm : ({ s with message := m } : Status).FallsBack := h
    rw [h.decode, hm.decode]
    rfl
  · have hm : ¬({ s with message := m } : Status).FallsBack := h
    rw [events_decode_of_not_fallsBack h, events_decode_of_not_fallsBack hm]

theorem events_decodeParts_message (code : Code) (message m : String) (bytes : List UInt8) :
    (decodeParts code m bytes).events = (decodeParts code message bytes).events := by
  cases ho : Payload.ofBytes bytes with
  | ok o =>
    simp only [decodeParts, ofParts, ho, Log.Logged.bind_quiet]
    exact events_decode_message ⟨code, message, o⟩ m
  | error e =>
    simp only [decodeParts, ofParts, ho, Log.Logged.events_bind]
    rw [← events_decode_message ⟨code, message, none⟩ m]

/-- Whatever the parts are, at most a note and then a warning are raised: the note exactly if there
are bytes and they are not those of a payload, the warning exactly if the status falls back. The
warning is one line. The note is one line too, except that each line feed in an unknown name for the
tag starts another; such a name stands in the bytes as a string. The message adds nothing. -/
theorem lines_decodeParts (code : Code) (message : String) (bytes : List UInt8) :
    ((∀ name, ¬Misnames bytes name) → LogsLines 1 code message bytes) ∧
    (∀ name, Misnames bytes name →
      LogsLines (lineFeeds name + 1) code message bytes ∧
      name ∉ Tag.all.map Tag.text ∧ HoldsString bytes name) ∧
    ∀ m, (decodeParts code m bytes).events = (decodeParts code message bytes).events := by
  refine ⟨logsLines_of_not_misnames code message, ?_, ?_⟩
  · intro name h
    exact ⟨logsLines_of_misnames code message h, h.holdsString⟩
  · intro m
    exact events_decodeParts_message code message m bytes

/-- The name given for the tag holds an escaped line feed. -/
def forged : List UInt8 := Text.Utf8.bytes "\x7b\"subtype\":\"x\\nDEBUG forged\"\x7d"

theorem misnames_forged : Misnames forged "x\nDEBUG forged" := by
  have hf : forged = (Json.Value.object [("subtype", .string "x\nDEBUG forged")]).bytes := by decide
  rw [hf]
  exact Payload.misnames_object (by decide)

theorem lines_decodeParts_forged : Misnames forged "x\nDEBUG forged" ∧
    LogsLines 2 .notFound "gone" forged :=
  ⟨misnames_forged, ((lines_decodeParts .notFound "gone" forged).2.1 _ misnames_forged).1⟩

/-- Two events are raised, and they make three lines. -/
theorem not_logsLines_one_forged : ¬LogsLines 1 .notFound "gone" forged ∧
    ¬((decodeParts .notFound "gone" forged).events.flatMap Log.Event.lines).length ≤ 2 := by
  have hc : Code.notFound ≠ .ok := by decide
  have hn : lineFeeds "x\nDEBUG forged" = 1 := by decide
  have hl := length_lines_of_misnames hc "gone" misnames_forged
  rw [hn] at hl
  constructor
  · intro h
    have ht := h.length_lines misnames_forged.malformed
      (fallsBack_of_misnames hc "gone" misnames_forged)
    omega
  · omega

end Status
end FaultCodec
