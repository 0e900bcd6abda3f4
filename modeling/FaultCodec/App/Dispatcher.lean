import FaultCodec.Settings.Rules

/-!
# Log dispatchers

A dispatcher decides which events it takes and in which form they are shown. Dispatchers are told
apart by a number, so that of two that behave the same it is still known which one has taken an
event.
-/

namespace FaultCodec

/-- What becomes of events. -/
inductive Sink where
  /-- They are all dropped. -/
  | silent
  /-- They are shown as text, up to some level. -/
  | plain (most : Log.Threshold)
  | filtered (filter : Log.Filter) (format : LogFormat)

namespace Sink

def keeps : Sink → Log.Event → Bool
  | silent, _ => false
  | plain most, e => most.keeps e.level
  | filtered filter _, e => filter.keeps e

/-- Whether events of a target and a level are kept, as far as that can be told without their
fields. -/
def enables : Sink → String → Log.Level → Bool
  | silent, _, _ => false
  | plain most, _, l => most.keeps l
  | filtered filter _, target, l => filter.enables target l

def format : Sink → LogFormat
  | filtered _ format => format
  | _ => .text

/-- The sink that settings describe, for any language of log filters. -/
def ofSettingsWith (read : Log.FilterReader) (s : Settings) : Except Log.FilterError Sink :=
  (read s.logLevel).map fun filter => filtered filter s.logFormat

def ofSettings (s : Settings) : Except Log.FilterError Sink :=
  ofSettingsWith Log.FilterReader.directives s

end Sink

/-- The message for settings whose log filter is none. -/
def Log.FilterError.refusal (directive : String) (e : Log.FilterError) : String :=
  "invalid log filter '" ++ directive ++ "': " ++ e.message

structure Dispatcher where
  id : Nat
  sink : Sink

/-- An event that a dispatcher has taken. -/
structure Entry where
  dispatcher : Dispatcher
  event : Log.Event

namespace Dispatcher

/-- The events that a dispatcher takes, in their order. -/
def take (d : Dispatcher) (es : List Log.Event) : List Entry :=
  (es.filter d.sink.keeps).map fun e => ⟨d, e⟩

theorem events_take (d : Dispatcher) (es : List Log.Event) :
    (d.take es).map Entry.event = es.filter d.sink.keeps := by
  simp [take, Function.comp_def]

theorem dispatcher_of_mem_take {d : Dispatcher} {es : List Log.Event} {x : Entry}
    (h : x ∈ d.take es) : x.dispatcher = d := by
  obtain ⟨e, _, rfl⟩ := List.mem_map.1 h
  rfl

end Dispatcher
end FaultCodec
