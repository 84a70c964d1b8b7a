import InertialRelay.Bridge
import InertialRelay.Proofs.Arbitration
import InertialRelay.Proofs.Readings

/-!
# Calls on a node

An owner hands its node messages and tells it about the connection. `Node.after` is the node after
one call; a station goes through the same nodes whatever its sink does (`Station.run_node`). One
lemma for each way a message can go: refused, unreadable, or read and assembled.
-/

namespace InertialRelay

/-- Whether the clock of the warnings reads a float, as the clock of a host does. -/
def Ambient.FloatClock (env : Ambient) : Prop := ∃ t, env.mono = .real t

namespace Node

/-- What an owner asks of its node. -/
inductive Call where
  | handle (env : Ambient) (m : Message)
  | connectionChanged (connected : Bool)

def Call.FloatClock : Call → Prop
  | .handle env _ => env.FloatClock
  | .connectionChanged _ => True

/-- The node after a call. -/
def after (n : Node) : Call → Node
  | .handle env m => (n.offer env m).node
  | .connectionChanged connected => (n.connectionChanged connected).1

/-- The node after calls. -/
def run (n : Node) (calls : List Call) : Node := calls.foldl after n

variable {n : Node} {env : Ambient} {m : Message}

theorem run_cons (n : Node) (c : Call) (calls : List Call) : n.run (c :: calls) = (n.after c).run calls := rfl

theorem offer_refused (h : (n.arbiter.accept m.kind).accepted = false) :
    n.offer env m = ⟨n, (n.arbiter.accept m.kind).log, .ok []⟩ := by
  simp [offer, h, Arbiter.accept_unchanged (.inl h)]

theorem offer_unread {f : Fault} (h : (n.arbiter.accept m.kind).accepted = true)
    (hr : Reading.ofMessage m env.ardupilot = .error f) :
    n.offer env m = ⟨{ n with arbiter := (n.arbiter.accept m.kind).arbiter },
      (n.arbiter.accept m.kind).log, .error f⟩ := by
  simp [offer, h, hr]

theorem offer_read {r : Reading} (h : (n.arbiter.accept m.kind).accepted = true)
    (hr : Reading.ofMessage m env.ardupilot = .ok r) :
    n.offer env m = ⟨⟨(n.arbiter.accept m.kind).arbiter, (n.assembler.assemble env r).assembler⟩,
      (n.arbiter.accept m.kind).log ++ (n.assembler.assemble env r).log,
      (n.assembler.assemble env r).outputs⟩ := by
  simp [offer, h, hr]

theorem handle_node {σ : Type} (sink : Sink σ) (n : Node) (s : σ) (env : Ambient) (m : Message) :
    (n.handle sink s env m).node = (n.offer env m).node := by
  simp only [handle]
  split <;> rfl

theorem handle_sink_of_ok {σ : Type} (sink : Sink σ) (s : σ) {outputs : List Output}
    (h : (n.offer env m).outputs = .ok outputs) :
    (n.handle sink s env m).sink = (sink.publishAll outputs s).state := by
  simp [handle, h]

theorem handle_sink_of_error {σ : Type} (sink : Sink σ) (s : σ) {f : Fault}
    (h : (n.offer env m).outputs = .error f) : (n.handle sink s env m).sink = s := by
  simp [handle, h]

theorem handle_result_of_error {σ : Type} (sink : Sink σ) (s : σ) {f : Fault}
    (h : (n.offer env m).outputs = .error f) : (n.handle sink s env m).result = .error f := by
  simp [handle, h]

end Node

namespace Station
variable {σ : Type}

/-- A node and its sink after a call. What the call raises is dropped. -/
def call (sink : Sink σ) (s : Station σ) : Node.Call → Station σ
  | .handle env m => ⟨(s.node.handle sink s.sink env m).node, (s.node.handle sink s.sink env m).sink⟩
  | .connectionChanged connected => ⟨(s.node.connectionChanged connected).1, s.sink⟩

/-- A node and its sink after calls. -/
def run (sink : Sink σ) (s : Station σ) (calls : List Node.Call) : Station σ :=
  calls.foldl (call sink) s

theorem call_node (sink : Sink σ) (s : Station σ) (c : Node.Call) :
    (s.call sink c).node = s.node.after c := by
  cases c with
  | handle env m => exact Node.handle_node sink s.node s.sink env m
  | connectionChanged connected => rfl

theorem run_node (sink : Sink σ) (s : Station σ) (calls : List Node.Call) :
    (s.run sink calls).node = s.node.run calls := by
  induction calls generalizing s with
  | nil => rfl
  | cons c calls ih =>
    rw [Node.run_cons, ← call_node sink s c]
    exact ih (s.call sink c)

end Station

namespace Assembler
variable {a : Assembler} {env : Ambient}

theorem attitude_frame (a : Assembler) (env : Ambient) (r : AttitudeReading) :
    ∃ last, (a.attitude env r).assembler = { a with lastAttitude := last } := by
  unfold attitude
  split
  · exact ⟨a.lastAttitude, rfl⟩
  · exact ⟨_, rfl⟩

theorem remember_frame (a : Assembler) (r : Option InertialReading) :
    ∃ acceleration, a.remember r = { a with acceleration } := by
  cases r with
  | none => exact ⟨a.acceleration, rfl⟩
  | some i => exact ⟨i.acceleration, rfl⟩

theorem distrust_eq_ok {a' : Assembler} {log : Log} (h : a.distrust env = .ok (a', log)) :
    ∃ due warning, a.warning.ready env.mono = .ok (due, warning) ∧
      a' = { a with warning, acceleration := .zero } := by
  simp only [distrust, bind_eq_ok, pure_eq_ok, Prod.mk.injEq] at h
  obtain ⟨⟨due, warning⟩, hd, rfl, -⟩ := h
  exact ⟨due, warning, hd, rfl⟩

theorem sensors_frame (a : Assembler) (env : Ambient) (r : SensorReading) :
    ∃ acceleration warning,
      (a.sensors env r).assembler = { a with acceleration, warning } := by
  obtain ⟨acceleration, hrem⟩ := a.remember_frame r.inertial
  simp only [sensors]
  split
  · exact ⟨a.acceleration, a.warning, rfl⟩
  split
  · split
    · exact ⟨acceleration, a.warning, hrem⟩
    next a' log hd =>
      obtain ⟨due, warning, -, rfl⟩ := distrust_eq_ok hd
      exact ⟨.zero, warning, by rw [hrem]⟩
  · exact ⟨acceleration, a.warning, hrem⟩

theorem assemble_labels (a : Assembler) (env : Ambient) (r : Reading) :
    (a.assemble env r).assembler.labels = a.labels := by
  cases r with
  | attitude r => obtain ⟨_, h⟩ := a.attitude_frame env r; rw [assemble, h]
  | sensors r => obtain ⟨_, _, h⟩ := a.sensors_frame env r; rw [assemble, h]

end Assembler

namespace Node
variable {n : Node}

/-- Of a call only what its message is read as reaches the assembler. -/
theorem after_assembler {P : Assembler → Prop}
    (h : ∀ a env m r, Reading.ofMessage m env.ardupilot = .ok r → P a → P (a.assemble env r).assembler)
    (hn : P n.assembler) (c : Call) : P (n.after c).assembler := by
  cases c with
  | connectionChanged connected => exact hn
  | handle env m =>
    rw [after]
    cases ha : (n.arbiter.accept m.kind).accepted with
    | false => rwa [offer_refused ha]
    | true =>
      cases hr : Reading.ofMessage m env.ardupilot with
      | error f => rwa [offer_unread ha hr]
      | ok r =>
        rw [offer_read ha hr]
        exact h _ env m r hr hn

/-- What holds of the assembler after each reading holds of it after calls. -/
theorem run_assembler {P : Assembler → Prop}
    (h : ∀ a env m r, Reading.ofMessage m env.ardupilot = .ok r → P a → P (a.assemble env r).assembler)
    (hn : P n.assembler) (calls : List Call) : P (n.run calls).assembler := by
  induction calls generalizing n with
  | nil => exact hn
  | cons c calls ih => exact ih (after_assembler h hn c)

theorem run_labels (n : Node) (calls : List Call) :
    (n.run calls).assembler.labels = n.assembler.labels := by
  refine run_assembler (P := fun a => a.labels = n.assembler.labels) (fun a env m r _ ha => ?_) rfl calls
  rw [Assembler.assemble_labels, ha]

theorem ofConfig_eq_ok {c : ImuConfig} {n : Node} :
    ofConfig c = .ok n ↔ ∃ labels, Labels.ofConfig c = .ok labels ∧ n = { assembler := { labels } } := by
  simp only [ofConfig, bind_eq_ok, pure_eq_ok]
  constructor
  · rintro ⟨labels, hl, rfl⟩
    exact ⟨labels, hl, rfl⟩
  · rintro ⟨labels, hl, rfl⟩
    exact ⟨labels, hl, rfl⟩

/-- A configuration without deviations is one of unknown covariances. -/
theorem ofConfig_zero (frameId : String) (topics : Topics) :
    ofConfig ⟨frameId, 0, 0, 0, 0, topics⟩ =
      .ok { assembler := { labels := ⟨frameId, topics, .unknown, .unknown, .unknown, .unknown⟩ } } := by
  have hz : Covariance.ofStdev (.real 0) = .ok .unknown := by rfl
  simp [ofConfig, Labels.ofConfig, hz, bind, Except.bind, pure, Except.pure]

end Node

theorem Labels.topics_of_ofConfig {c : ImuConfig} {l : Labels} (h : Labels.ofConfig c = .ok l) :
    l.frameId = c.frameId ∧ l.topics = c.topics := by
  simp only [ofConfig, bind_eq_ok, pure_eq_ok] at h
  obtain ⟨_, -, _, -, _, -, _, -, rfl⟩ := h
  exact ⟨rfl, rfl⟩

end InertialRelay
