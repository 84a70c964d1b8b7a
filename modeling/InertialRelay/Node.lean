import InertialRelay.Arbiter
import InertialRelay.Assembler

/-!
# The relay node

A node takes messages one at a time. It lets the arbiter decide, turns an accepted message into
records, and then offers these to a sink. What the node remembers does not depend on the sink.
-/

namespace InertialRelay

structure Node where
  arbiter : Arbiter := {}
  assembler : Assembler
  deriving Repr, DecidableEq

namespace Node

def ofConfig (c : ImuConfig) : Except Fault Node := do
  return { assembler := { labels := ← Labels.ofConfig c } }

/-- A node after a message, and the records it has to offer. -/
structure Offer where
  node : Node
  log : Log
  outputs : Except Fault (List Output)

/-- Takes one message, up to the records that follow from it. -/
def offer (n : Node) (env : Ambient) (m : Message) : Offer :=
  let v := n.arbiter.accept m.kind
  let n := { n with arbiter := v.arbiter }
  if v.accepted then
    match Reading.ofMessage m env.ardupilot with
    | .error f => ⟨n, v.log, .error f⟩
    | .ok r =>
      let a := n.assembler.assemble env r
      ⟨{ n with assembler := a.assembler }, v.log ++ a.log, a.outputs⟩
  else ⟨n, v.log, .ok []⟩

/-- A node and its sink after a message, and the number of records published. -/
structure Handled (σ : Type) where
  node : Node
  sink : σ
  log : Log
  result : Except Fault Nat

/-- Takes one message and publishes what follows from it. -/
def handle {σ : Type} (sink : Sink σ) (n : Node) (s : σ) (env : Ambient) (m : Message) :
    Handled σ :=
  let o := n.offer env m
  match o.outputs with
  | .error f => ⟨o.node, s, o.log, .error f⟩
  | .ok outputs =>
    let r := sink.publishAll outputs s
    ⟨o.node, r.state, o.log ++ r.log,
      match r.fault with
      | some f => .error f
      | none => .ok outputs.length⟩

/-- Any change of the connection forgets which sources were seen. -/
def connectionChanged (n : Node) (connected : Bool) : Node × Log :=
  ({ n with arbiter := n.arbiter.reset },
    [⟨.debug, .node,
      "Connection " ++ (if connected then "established" else "lost") ++
        ", resetting IMU sources"⟩])

end Node

end InertialRelay
