import FaultCodec.Http
import FaultCodec.Status.Json
import FaultCodec.Status.Trailers

/-!
# Relays

A fault is relayed over hops, one after the other. Every hop puts the fault into some parcel, may
tamper with it, and reads what has arrived. A hop that makes a success of a fault ends the run:
there is nothing left to relay.
-/

namespace FaultCodec
namespace Relay

inductive Hop where
  /-- A status as it is. -/
  | status
  /-- The parts of a status, of the payload no more than the given number of bytes. -/
  | parts (keep : Option Nat)
  /-- The JSON text of a status. -/
  | json
  | trailers
  /-- The HTTP status that a proxy answers with. -/
  | http
  /-- No transport: the fault becomes the cause of another one. -/
  | wrap (kind : Kind) (text : String)
  /-- A status whose code has been replaced. -/
  | graftCode (code : Code)
  /-- A status whose payload has been replaced. -/
  | graftPayload (payload : Option Payload)
  deriving Repr, DecidableEq

/-- What has travelled over a hop. -/
inductive Parcel where
  | status (s : Status)
  | json (text : String)
  | trailers (t : Trailers)
  | http (s : Http.Status)
  | fault (f : Fault)
  deriving Repr, DecidableEq

/-- A hop that was taken: the fault before it, its parcel, and what has arrived. -/
structure Passage where
  sent : Fault
  parcel : Parcel
  arrived : Log.Logged (Option Fault)

namespace Passage

def events (p : Passage) : List Log.Event := p.arrived.events

def arrived? (p : Passage) : Option Fault := p.arrived.value

/-- Whether a fault equivalent to the one before the hop has arrived. -/
def isFaithful (p : Passage) : Bool :=
  match p.arrived? with
  | none => false
  | some f => f ≈ p.sent

end Passage

namespace Hop

/-- A status that is decoded as it is. -/
def deliver (f : Fault) (s : Status) : Passage := ⟨f, .status s, s.decode⟩

/-- The parts of a status, read again; its payload bytes are cut. -/
def deliverParts (f : Fault) (keep : Option Nat) : Passage :=
  let s := Status.ofFault f
  let bytes := match keep with
    | none => s.payloadBytes
    | some n => s.payloadBytes.take n
  let read := Status.ofParts s.code s.message bytes
  ⟨f, .status read.value, read.bind Status.decode⟩

def deliverJson (f : Fault) : Passage :=
  let json := (Status.ofFault f).toJson
  let arrived := match Status.ofJson json.bytes with
    | .ok s => s.decode
    | .error _ => .quiet none
  ⟨f, .json json.render, arrived⟩

def deliverTrailers (f : Fault) : Passage :=
  let t := Trailers.ofFault f
  ⟨f, .trailers t, t.decode⟩

/-- An HTTP answer with the message for its body. -/
def deliverHttp (f : Fault) : Passage :=
  let s := Http.Status.ofKind f.kind
  ⟨f, .http s, .quiet (s.fault? f.message)⟩

def deliverWrapped (f : Fault) (kind : Kind) (text : String) : Passage :=
  let g := (Fault.raise kind text).withCause (.fault f)
  ⟨f, .fault g, .quiet (some g)⟩

def take (f : Fault) : Hop → Passage
  | status => deliver f (Status.ofFault f)
  | parts keep => deliverParts f keep
  | json => deliverJson f
  | trailers => deliverTrailers f
  | http => deliverHttp f
  | wrap kind text => deliverWrapped f kind text
  | graftCode code => deliver f { Status.ofFault f with code }
  | graftPayload payload => deliver f { Status.ofFault f with payload }

end Hop

/-- The passages of a run, up to the first hop after which there is no fault left. -/
def run (f : Fault) : List Hop → List Passage
  | [] => []
  | hop :: hops =>
    let p := hop.take f
    p :: match p.arrived? with
      | none => []
      | some g => run g hops

/-- What is left of a fault at the end of a run. -/
def final (f : Fault) : List Hop → Option Fault
  | [] => some f
  | hop :: hops => (hop.take f).arrived?.bind fun g => final g hops

@[simp] theorem final_nil (f : Fault) : final f [] = some f := rfl

end Relay
end FaultCodec
