import FaultCodec.Proofs.Toml.Document
import FaultCodec.Proofs.Toml.Record
import FaultCodec.Settings.Toml
import Mathlib.Tactic.MkIffOfInductiveProp

/-!
# Settings in a table

What a table says about settings, told from what it holds under their names. Tables whose names are
distinct and whose known names stand for values of the right type are read as just that.
-/

namespace FaultCodec

open Toml (Entries Node)

namespace RemoteRead.Draft

/-- The first draft, and the second one where the first says nothing. -/
def or (first second : Draft) : Draft where
  address := first.address.or second.address
  timeout := first.timeout.or second.timeout
  keepAlive := first.keepAlive.or second.keepAlive
  maxIdleConns := first.maxIdleConns.or second.maxIdleConns
  maxConns := first.maxConns.or second.maxConns
  clientName := first.clientName.or second.clientName

def ofToml (es : Entries) : Draft where
  address := es.value? Node.text? "address"
  timeout := es.value? Node.unsigned? "timeout_secs"
  keepAlive := es.value? Node.unsigned? "keep_alive_secs"
  maxIdleConns := es.value? Node.unsigned? "max_idle_conns"
  maxConns := es.value? Node.unsigned? "max_conns"
  clientName := es.value? Node.text? "client_name"

end RemoteRead.Draft

namespace RemoteRead

open Draft

def tomlFilling : tomlRecord.Filling where
  said := ofToml
  onto := Draft.or
  onto_assoc := by simp [Draft.or, Option.or_assoc]
  onto_blank := by simp [Draft.or, tomlRecord]
  said_nil := by simp [Draft.or, ofToml]
  said_cons := by
    intro e es h
    simp only [ofToml, Draft.or, Entries.value?_cons h]

/-- A table that describes a section: an address, and values of the right types under all other
known names that it has. -/
@[mk_iff] structure Described (es : Entries) : Prop where
  address : (es.value? Node.text? "address").isSome
  timeout : es.Holds Node.unsigned? "timeout_secs"
  keepAlive : es.Holds Node.unsigned? "keep_alive_secs"
  maxIdleConns : es.Holds Node.unsigned? "max_idle_conns"
  maxConns : es.Holds Node.unsigned? "max_conns"
  clientName : es.Holds Node.text? "client_name"

instance (es : Entries) : Decidable (Described es) := decidable_of_iff _ (described_iff es).symm

theorem readEntry_of_described {es : Entries} (h : Described es) (hes : es.names.Nodup)
    {e : Toml.Key × Node} (he : e ∈ es) (d : Draft) :
    tomlRecord.readEntry d e = .ok (tomlFilling.onto (tomlFilling.said [e]) d) := by
  obtain ⟨⟨name, span⟩, node⟩ := e
  have ha : es.Holds Node.text? "address" := by
    obtain ⟨a, ha⟩ := Option.isSome_iff_exists.mp h.address
    exact Entries.holds_of_value? ha
  by_cases hn : name ∈ tomlRecord.fields.map Toml.Field.name
  · simp only [tomlRecord, List.map_cons, List.map_nil, List.mem_cons, List.not_mem_nil,
      or_false] at hn
    rcases hn with rfl | rfl | rfl | rfl | rfl | rfl
    · refine tomlFilling.readEntry_into hes he rfl ha (fun _ => Toml.readText_of_text?) ?_
      intro a hv
      simp [tomlFilling, Draft.or, ofToml, Entries.value?_singleton, hv]
    · refine tomlFilling.readEntry_into hes he rfl h.timeout
        (fun _ => Toml.readUnsigned_of_unsigned? _) ?_
      intro n hv
      simp [tomlFilling, Draft.or, ofToml, Entries.value?_singleton, hv]
    · refine tomlFilling.readEntry_into hes he rfl h.keepAlive
        (fun _ => Toml.readUnsigned_of_unsigned? _) ?_
      intro n hv
      simp [tomlFilling, Draft.or, ofToml, Entries.value?_singleton, hv]
    · refine tomlFilling.readEntry_into hes he rfl h.maxIdleConns
        (fun _ => Toml.readUnsigned_of_unsigned? _) ?_
      intro n hv
      simp [tomlFilling, Draft.or, ofToml, Entries.value?_singleton, hv]
    · refine tomlFilling.readEntry_into hes he rfl h.maxConns
        (fun _ => Toml.readUnsigned_of_unsigned? _) ?_
      intro n hv
      simp [tomlFilling, Draft.or, ofToml, Entries.value?_singleton, hv]
    · refine tomlFilling.readEntry_into hes he rfl h.clientName
        (fun _ => Toml.readText_of_text?) ?_
      intro a hv
      simp [tomlFilling, Draft.or, ofToml, Entries.value?_singleton, hv]
  · rw [Toml.Record.readEntry_of_unknown hn]
    have hs : ofToml [(⟨name, span⟩, node)] = {} := by
      simp only [tomlRecord, List.map_cons, List.map_nil, List.mem_cons, List.not_mem_nil,
        or_false, not_or] at hn
      simp [ofToml, Entries.value?_singleton, hn]
    simp [tomlFilling, Draft.or, hs]

/-- A section that has the address of a table, and all other fields as the table has them or else by
their defaults. -/
structure Completes (r : RemoteRead) (es : Entries) : Prop where
  address : es.value? Node.text? "address" = some r.address
  timeout : r.timeout = (es.value? Node.unsigned? "timeout_secs").getD 30
  keepAlive : r.keepAlive = (es.value? Node.unsigned? "keep_alive_secs").getD 30
  maxIdleConns : r.maxIdleConns = (es.value? Node.unsigned? "max_idle_conns").getD 10
  maxConns : r.maxConns = (es.value? Node.unsigned? "max_conns").getD 100
  clientName : r.clientName = (es.value? Node.text? "client_name").getD "wirex"

theorem finish_of_described {es : Entries} (h : Described es) :
    ∃ r, (ofToml es).finish = .ok r ∧ r.Completes es := by
  obtain ⟨address, ha⟩ := Option.isSome_iff_exists.mp h.address
  have hf : ∃ r, (ofToml es).finish = .ok r := by
    simp [Draft.finish, ofToml, ha]
  obtain ⟨r, hr⟩ := hf
  refine ⟨r, hr, ?_⟩
  simp only [Draft.finish, ofToml, ha] at hr
  cases hr
  exact ⟨ha, rfl, rfl, rfl, rfl, rfl⟩

def ofNode? (node : Node) : Option RemoteRead :=
  node.entries?.bind fun es => (ofToml es).finish.toOption

theorem ofNode?_eq_some_iff {node : Node} {es : Entries} (h : node.entries? = some es)
    (r : RemoteRead) : ofNode? node = some r ↔ (ofToml es).finish = .ok r := by
  rw [ofNode?, h, Option.bind_some]
  cases (ofToml es).finish <;> simp [Except.toOption]

theorem read_of_ofNode? {node : Node} {es : Entries} (hn : node.entries? = some es)
    (h : Described es) (hes : es.names.Nodup) {r : RemoteRead} (hr : ofNode? node = some r) :
    tomlRecord.read node = .ok r := by
  rw [Toml.Record.read_of_entries? hn]
  exact tomlFilling.ofEntries hes (fun e he => readEntry_of_described h hes he)
    ((ofNode?_eq_some_iff hn r).mp hr)

end RemoteRead

namespace Settings

namespace Draft

/-- The first draft, and the second one where the first says nothing. -/
def or (first second : Draft) : Draft where
  serviceName := first.serviceName.or second.serviceName
  logLevel := first.logLevel.or second.logLevel
  logFormat := first.logFormat.or second.logFormat
  remoteRead := first.remoteRead.or second.remoteRead

def ofToml (es : Entries) : Draft where
  serviceName := es.value? Node.text? "service_name"
  logLevel := es.value? Node.text? "log_level"
  logFormat := es.value? (Node.choice? LogFormat.choices) "log_format"
  remoteRead := (es.value? RemoteRead.ofNode? "remote_read").map some

end Draft

open Draft

def tomlFilling : tomlRecord.Filling where
  said := Draft.ofToml
  onto := Draft.or
  onto_assoc := by simp [Draft.or, Option.or_assoc]
  onto_blank := by simp [Draft.or, tomlRecord]
  said_nil := by simp [Draft.or, Draft.ofToml]
  said_cons := by
    intro e es h
    simp only [Draft.ofToml, Draft.or, Entries.value?_cons h, Option.map_or]

/-- A table that describes settings: values of the right types under all known names that it has,
for the section a table that describes one. -/
@[mk_iff] structure Described (es : Entries) : Prop where
  serviceName : es.Holds Node.text? "service_name"
  logLevel : es.Holds Node.text? "log_level"
  logFormat : es.Holds (Node.choice? LogFormat.choices) "log_format"
  remoteRead : ∀ node, es.find? "remote_read" = some node →
    ∃ inner, node.entries? = some inner ∧ RemoteRead.Described inner

instance (es : Entries) : Decidable (Described es) :=
  have : Decidable (∀ node, es.find? "remote_read" = some node →
      ∃ inner, node.entries? = some inner ∧ RemoteRead.Described inner) :=
    decidable_of_iff ((es.find? "remote_read").all fun node =>
      node.entries?.any fun inner => RemoteRead.Described inner) (by
        cases es.find? "remote_read" <;> simp [Option.any_eq_true])
  decidable_of_iff _ (described_iff es).symm

theorem Described.holds_remoteRead {es : Entries} (h : Described es) :
    es.Holds RemoteRead.ofNode? "remote_read" := by
  intro node hn
  obtain ⟨inner, hi, hd⟩ := h.remoteRead node hn
  obtain ⟨r, hr, _⟩ := RemoteRead.finish_of_described hd
  exact ⟨r, (RemoteRead.ofNode?_eq_some_iff hi r).mpr hr⟩

theorem readEntry_of_described {es : Entries} (h : Described es) (hes : es.Tidy)
    {e : Toml.Key × Node} (he : e ∈ es) (d : Draft) :
    tomlRecord.readEntry d e = .ok (tomlFilling.onto (tomlFilling.said [e]) d) := by
  obtain ⟨⟨name, span⟩, node⟩ := e
  by_cases hn : name ∈ tomlRecord.fields.map Toml.Field.name
  · simp only [tomlRecord, List.map_cons, List.map_nil, List.mem_cons, List.not_mem_nil,
      or_false] at hn
    rcases hn with rfl | rfl | rfl | rfl
    · refine tomlFilling.readEntry_into hes.nodup he rfl h.serviceName
        (fun _ => Toml.readText_of_text?) ?_
      intro a hv
      simp [tomlFilling, Draft.or, Draft.ofToml, Entries.value?_singleton, hv]
    · refine tomlFilling.readEntry_into hes.nodup he rfl h.logLevel
        (fun _ => Toml.readText_of_text?) ?_
      intro a hv
      simp [tomlFilling, Draft.or, Draft.ofToml, Entries.value?_singleton, hv]
    · refine tomlFilling.readEntry_into hes.nodup he rfl h.logFormat
        (fun _ => Toml.readChoice_of_choice?) ?_
      intro f hv
      simp [tomlFilling, Draft.or, Draft.ofToml, Entries.value?_singleton, hv]
    · -- the section is a table of the document, so its names are distinct as well
      obtain ⟨inner, hi, hd⟩ := h.remoteRead node (Entries.find?_of_mem hes.nodup he)
      have hinner : inner.names.Nodup := ((hes.nodes _ he).of_entries? hi).nodup
      refine tomlFilling.readEntry_into hes.nodup he rfl h.holds_remoteRead
        (fun _ => RemoteRead.read_of_ofNode? hi hd hinner) ?_
      intro r hv
      simp [tomlFilling, Draft.or, Draft.ofToml, Entries.value?_singleton, hv]
  · rw [Toml.Record.readEntry_of_unknown hn]
    have hs : Draft.ofToml [(⟨name, span⟩, node)] = {} := by
      simp only [tomlRecord, List.map_cons, List.map_nil, List.mem_cons, List.not_mem_nil,
        or_false, not_or] at hn
      simp [Draft.ofToml, Entries.value?_singleton, hn]
    simp [tomlFilling, Draft.or, hs]

/-- A document that describes settings is read as the settings of what it says. -/
theorem ofToml_of_described {text : String} {es : Entries}
    (hd : Toml.document text.toList = some es) (h : Described es) :
    ofToml text = .ok (Draft.ofToml es).finish := by
  have hes := Toml.tidy_of_document hd
  have hr : tomlRecord.ofEntries es = .ok (Draft.ofToml es).finish :=
    tomlFilling.ofEntries hes.nodup (fun e he => readEntry_of_described h hes he) rfl
  simp only [ofToml, hd, hr]

end Settings
end FaultCodec
