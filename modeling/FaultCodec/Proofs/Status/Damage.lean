import FaultCodec.Proofs.Payload
import FaultCodec.Proofs.Status.Decoding

/-!
# Damaged payloads

Bytes that were cut, or that have more than blanks behind them, are not read as another payload:
they are not read at all. The fault of such a status is the fallback for its code and its message,
and one warning says so. Unless no bytes are left, a note that they could not be read comes before
the warning.
-/

namespace FaultCodec
namespace Status

open Json (Byte.isSpace)

/-- What is left of a status whose payload is lost. -/
def stripped (code : Code) (message : String) : Status := ⟨code, message, none⟩

theorem decode_stripped {code : Code} (h : code ≠ .ok) (message : String) :
    (stripped code message).decode =
      ⟨some (stripped code message).fallback, [(stripped code message).fallbackWarning]⟩ :=
  decode_of_unfit h nofun

theorem decodeParts_nil {code : Code} (h : code ≠ .ok) (message : String) :
    decodeParts code message [] =
      ⟨some (stripped code message).fallback, [(stripped code message).fallbackWarning]⟩ := by
  rw [← decode_stripped h]
  rfl

theorem ofParts_of_error (code : Code) (message : String) {bytes : List UInt8} {e : Json.Error}
    (h : Payload.ofBytes bytes = .error e) :
    ofParts code message bytes = ⟨stripped code message, [undecodableNote code bytes e]⟩ := by
  simp only [ofParts, h]
  rfl

theorem decodeParts_of_error {code : Code} (h : code ≠ .ok) (message : String)
    {bytes : List UInt8} {e : Json.Error} (he : Payload.ofBytes bytes = .error e) :
    decodeParts code message bytes =
      ⟨some (stripped code message).fallback,
        [undecodableNote code bytes e, (stripped code message).fallbackWarning]⟩ := by
  simp only [decodeParts, ofParts_of_error code message he, Log.Logged.bind, decode_stripped h,
    List.singleton_append]

/-- Cut bytes cost a fault its kind and its reason, and the log tells whether any were left. -/
theorem decodeParts_take (f : Fault) {k : Nat} (hk : k < (ofFault f).payloadBytes.length) :
    ∃ notes, decodeParts f.code f.message ((ofFault f).payloadBytes.take k) =
        ⟨some (stripped f.code f.message).fallback,
          notes ++ [(stripped f.code f.message).fallbackWarning]⟩ ∧
      (k = 0 → notes = []) ∧
      (0 < k → ∃ e, notes = [undecodableNote f.code ((ofFault f).payloadBytes.take k) e]) := by
  have hc : f.code ≠ .ok := f.kind.code_ne_ok
  rcases Nat.eq_zero_or_pos k with rfl | h
  · exact ⟨[], decodeParts_nil hc f.message, fun _ => rfl, fun h => absurd h (Nat.lt_irrefl 0)⟩
  · have hb : (ofFault f).payloadBytes = (Payload.ofKind f.kind).bytes := rfl
    rw [hb] at hk ⊢
    obtain ⟨e, he⟩ := (Payload.ofKind f.kind).ofBytes_take_eq_error h hk
    refine ⟨[undecodableNote f.code _ e], decodeParts_of_error hc f.message he, ?_, ?_⟩
    · intro hzero
      exact absurd hzero (Nat.ne_of_gt h)
    · intro _
      exact ⟨e, rfl⟩

/-- The bytes of a payload are never empty; with blanks around them they are still those of that
payload; cut, or with anything else behind them, they are unreadable. So a fault whose payload bytes
have been cut arrives as the internal fault that names its code before its message, with one warning
and, if any bytes were left, a note before it. -/
theorem damage_detected :
    (∀ p : Payload,
      p.bytes ≠ [] ∧
      (∀ n, 0 < n → n < p.bytes.length → ∃ e, Payload.ofBytes (p.bytes.take n) = .error e) ∧
      (∀ after, (∃ b ∈ after, Byte.isSpace b = false) →
        ∃ e, Payload.ofBytes (p.bytes ++ after) = .error e) ∧
      ∀ before after, (∀ b ∈ before, Byte.isSpace b = true) →
        (∀ b ∈ after, Byte.isSpace b = true) →
        Payload.ofBytes (before ++ (p.bytes ++ after)) = .ok (some p)) ∧
    ∀ (f : Fault) (k : Nat), k < (ofFault f).payloadBytes.length →
      ∃ g notes w, decodeParts f.code f.message ((ofFault f).payloadBytes.take k) =
          ⟨some g, notes ++ [w]⟩ ∧
        g.kind = .internal ∧ g.cause? = none ∧
        g.message = "missing subtype specifier for " ++ f.code.name ++ ". wire:" ++
          f.code.name ++ ": " ++ f.message ∧
        w.level = .warn ∧
        w.message = "status has no usable subtype specifier, decoding as Internal" ∧
        (k = 0 → notes = []) ∧
        (0 < k → ∃ note, notes = [note] ∧ note.level = .debug ∧
          note.message = "ignoring undecodable status details") := by
  constructor
  · intro p
    refine ⟨p.bytes_ne_nil, ?_, ?_, ?_⟩
    · intro n h hn
      exact p.ofBytes_take_eq_error h hn
    · intro after h
      exact ⟨_, p.ofBytes_append_eq_error h⟩
    · intro before after hb ha
      exact p.ofBytes_between_space hb ha
  · intro f k hk
    obtain ⟨notes, hd, hzero, hpos⟩ := decodeParts_take f hk
    refine ⟨_, notes, _, hd, rfl, rfl, (stripped f.code f.message).fallbackMessage_eq, rfl, rfl,
      hzero, ?_⟩
    intro h
    obtain ⟨e, he⟩ := hpos h
    exact ⟨_, he, rfl, rfl⟩

/-- A fault whose payload ends in a character of two bytes, before the closing quote and brace. -/
def accented : Fault := .raise (.requiresProxyRequest "pass\u00e9") "late"

/-- The cut goes through the last character of the reason. -/
theorem damage_detected_accented :
    51 < (ofFault accented).payloadBytes.length ∧
      ∃ g note w, decodeParts accented.code accented.message
          ((ofFault accented).payloadBytes.take 51) = ⟨some g, [note, w]⟩ ∧
        g.message = "missing subtype specifier for NotFound. wire:NotFound: wire:NotFound: late" ∧
        note.level = .debug ∧ w.level = .warn := by
  have hk : 51 < (ofFault accented).payloadBytes.length := by decide
  refine ⟨hk, ?_⟩
  obtain ⟨g, notes, w, hd, _, _, hm, hw, _, _, hpos⟩ := damage_detected.2 accented 51 hk
  obtain ⟨note, hn, hlevel, _⟩ := hpos (by decide)
  rw [hn] at hd
  refine ⟨g, note, w, hd, ?_, hlevel, hw⟩
  rw [hm]
  decide

end Status
end FaultCodec
