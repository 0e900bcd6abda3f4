import FaultCodec.Proofs.Settings.Environment
import FaultCodec.Proofs.Settings.Toml
import FaultCodec.Proofs.Text.Utf8
import FaultCodec.Settings.Load

/-!
# What settings are loaded from

A field takes its value from the environment, or else from the document, or else from its default.
The address is the only field of a section that the environment knows, so a section of the document
keeps its other fields, and one that the environment makes has the defaults there. The environment
has no part in an error.
-/

namespace FaultCodec

open Toml (Entries Node)

namespace Settings

theorem remoteRead_finish_of_none {es : Entries} (h : es.find? "remote_read" = none) :
    (Draft.ofToml es).finish.remoteRead = none := by
  simp only [Draft.finish, Draft.ofToml, Entries.value?, h]
  rfl

/-- The section of a document is the one that its table describes. -/
theorem remoteRead_finish_of_some {es inner : Entries} (h : Described es)
    (hi : es.value? Node.entries? "remote_read" = some inner) :
    ∃ r, (Draft.ofToml es).finish.remoteRead = some r ∧ r.Completes inner := by
  obtain ⟨node, hn, hi⟩ := Option.bind_eq_some_iff.mp hi
  obtain ⟨inner', hi', hd⟩ := h.remoteRead node hn
  cases hi'.symm.trans hi
  obtain ⟨r, hr, hc⟩ := RemoteRead.finish_of_described hd
  refine ⟨r, ?_, hc⟩
  have hv : es.value? RemoteRead.ofNode? "remote_read" = some r := by
    rw [Entries.value?, hn, Option.bind_some]
    exact (RemoteRead.ofNode?_eq_some_iff hi r).mpr hr
  simp only [Draft.finish, Draft.ofToml, hv]
  rfl

theorem remoteRead_finish_eq_none_iff {es : Entries} (h : Described es) :
    (Draft.ofToml es).finish.remoteRead = none ↔ es.find? "remote_read" = none := by
  cases hn : es.find? "remote_read" with
  | none => simp [remoteRead_finish_of_none hn]
  | some node =>
    obtain ⟨inner, hi, _⟩ := h.remoteRead node hn
    have hv : es.value? Node.entries? "remote_read" = some inner := by
      rw [Entries.value?, hn, Option.bind_some, hi]
    obtain ⟨r, hr, _⟩ := remoteRead_finish_of_some h hv
    simp [hr]

end Settings

namespace Source

theorem read_of_ofToml_eq_ok {bytes : List UInt8} {text : String} {s : Settings}
    (ht : Text.Utf8.text? bytes = some text) (h : Settings.ofToml text = .ok s) (path : String) :
    (file path (some bytes)).read = .ok s := by
  simp only [read, Option.bind_some, ht, h]

theorem read_of_ofToml_eq_error {bytes : List UInt8} {text : String} {e : ParseError}
    (ht : Text.Utf8.text? bytes = some text) (h : Settings.ofToml text = .error e)
    (path : String) : (file path (some bytes)).read = .error (.parse text e) := by
  simp only [read, Option.bind_some, ht, h]

theorem read_of_text?_eq_none {bytes : List UInt8} (ht : Text.Utf8.text? bytes = none)
    (path : String) : (file path (some bytes)).read = .error (.notFound path) := by
  simp only [read, Option.bind_some, ht]

theorem load_of_error {source : Source} {e : LoadError} (h : source.read = .error e)
    (env : Environment) : source.load env = .error e := by
  rw [load, h]
  rfl

theorem load_of_ok {source : Source} {s : Settings} (h : source.read = .ok s)
    (env : Environment) : source.load env = .ok (s.under env) := by
  rw [load, h]
  rfl

/-- A document with names that are not known, and with a section that leaves most of its fields
out. -/
def partialText : String :=
  "other = [1]\nlog_level = \"warn\"\n" ++
    "[remote_read]\nmax_conns = 7\nx = true\naddress = \"http://a\"\n"

/-- A name that is no text, a format in upper case and an address. -/
def mixedEnvironment : Environment where
  serviceName := some [0xFF]
  logFormat := some [0x4A, 0x53, 0x4F, 0x4E]
  address := some (Text.Utf8.bytes "https://b")

end Source
end FaultCodec
