import InertialRelay.Node
import InertialRelay.Receiver

/-!
# Bridges

A bridge is a receiver whose only subscriber is a node with a sink. The node is told whether the
firmware belongs to the ArduPilot family as the link knows it at that moment.
-/

namespace InertialRelay

/-- A node and the state of its sink. -/
structure Station (σ : Type) where
  node : Node
  sink : σ

namespace Station

variable {σ : Type}

/-- The node as a handler of messages, whose faults refer to a manual. -/
def handle (sink : Sink σ) (manual : Option String) (env : Ambient) (m : Message) (s : Station σ) :
    Reaction (Station σ) :=
  let h := s.node.handle sink s.sink env m
  { state := ⟨h.node, h.sink⟩, log := h.log
    fault := match h.result with
      | .ok _ => none
      | .error f => some (f.located manual) }

/-- The node as a listener to connections. -/
def connectionChanged (connected : Bool) (s : Station σ) : Reaction (Station σ) :=
  let (node, log) := s.node.connectionChanged connected
  { state := { s with node }, log }

/-- The node as the only subscriber of a link; `wall` is the host clock. -/
def audience (sink : Sink σ) (manual : Option String) (offset : Option Num) (wall : Nat → Num) :
    Audience Num (Station σ) := fun link now =>
  { handlers :=
      [handle sink manual { offset, wall, mono := now, ardupilot := link.isArdupilot }]
    listeners := [connectionChanged] }

end Station

structure Bridge (σ : Type) where
  receiver : Receiver
  station : Station σ
  /-- The known offset of the device clock. -/
  offset : Option Num
  /-- Where the manual is found that faults of the node refer to. -/
  manual : Option String

namespace Bridge

variable {σ : Type}

/-- The bridge of a configuration, with a sink in its first state. -/
def ofConfig (c : BridgeConfig) (sink : σ) (manual : Option String := none) :
    Except Fault (Bridge σ) := do
  let node ← Node.ofConfig c.imu
  return {
    receiver := .ofSettings (.ofConfig c.link)
    station := ⟨node, sink⟩
    offset := c.link.timeOffset.map .real
    manual }

def audience (sink : Sink σ) (wall : Nat → Num) (b : Bridge σ) : Audience Num (Station σ) :=
  Station.audience sink b.manual b.offset wall

/-- A bridge after an event. -/
structure Outcome (σ : Type) where
  bridge : Bridge σ
  log : Log
  fault : Option Fault

/-- Puts a link and a station back into their bridge. -/
def after (b : Bridge σ) (r : Linked Num (Station σ)) : Outcome σ where
  bridge := { b with receiver := { b.receiver with link := r.link }, station := r.state }
  log := r.log
  fault := r.fault

/-- Takes a wire message at reading `now`. -/
def process (sink : Sink σ) (wall : Nat → Num) (now : Num) (w : WireMessage) (b : Bridge σ) :
    Outcome σ :=
  b.after ((b.audience sink wall).process now w b.receiver.link b.station)

def checkTimeout (sink : Sink σ) (wall : Nat → Num) (now : Num) (b : Bridge σ) : Outcome σ :=
  b.after ((b.audience sink wall).checkTimeout now b.receiver.link b.station)

/-- Starts the receiver at reading `now`, with the node as its subscriber. -/
def start (sink : Sink σ) (wall : Nat → Num) (t : Transport) (now : Num) (b : Bridge σ) :
    Receiver.Started (Station σ) :=
  b.receiver.start (b.audience sink wall) t now b.station

end Bridge

end InertialRelay
