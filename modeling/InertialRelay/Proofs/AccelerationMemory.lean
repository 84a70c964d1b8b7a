import InertialRelay.Proofs.FailingSinks
import InertialRelay.Proofs.Readings

/-!
# The acceleration that attitude records repeat

`Node.run_acceleration`: after any calls on a new node its memory is decided by the last message
that left an imprint, and a sink is handed just that with the records of an attitude.
`Throttle.Steady` is what carries the memory along: while the clock of the warnings reads floats a
warning never fails, so the memory is not left half written.
-/

namespace InertialRelay

/-- A throttle on a clock that reads floats. -/
def Throttle.Steady (t : Throttle Num) : Prop := ∀ last ∈ t.last, ∃ x, last = .real x

theorem Throttle.Steady.ready {t : Throttle Num} {now : Num} (h : t.Steady) (hn : ∃ x, now = .real x) :
    ∃ due t', t.ready now = .ok (due, t') ∧ t'.Steady := by
  have hnow : ({ t with last := some now } : Throttle Num).Steady := by
    rintro last ⟨⟩
    exact hn
  cases hl : t.last with
  | none => exact ⟨true, { t with last := some now }, by simp [Throttle.ready, hl], hnow⟩
  | some last =>
    obtain ⟨x, rfl⟩ := hn
    obtain ⟨y, rfl⟩ := h last hl
    have he : Timescale.between (Num.real y) (.real x) = .ok (.real (x - y)) := rfl
    by_cases hd : Timescale.less (Num.real (x - y)) t.period = true
    · exact ⟨false, t, by simp [Throttle.ready, hl, he, hd, bind, Except.bind, pure, Except.pure], h⟩
    · exact ⟨true, { t with last := some (.real x) },
        by simp [Throttle.ready, hl, he, hd, bind, Except.bind, pure, Except.pure], hnow⟩

namespace Assembler
variable {a : Assembler} {env : Ambient}

theorem remember_acceleration (a : Assembler) (r : Option InertialReading) :
    (a.remember r).acceleration = (r.map (·.acceleration)).getD a.acceleration := by
  cases r <;> rfl

theorem remember_warning (a : Assembler) (r : Option InertialReading) :
    (a.remember r).warning = a.warning := by
  cases r <;> rfl

theorem distrust_ok (h : a.warning.Steady) (hc : env.FloatClock) :
    ∃ a' log, a.distrust env = .ok (a', log) ∧ a'.acceleration = .zero ∧ a'.warning.Steady := by
  obtain ⟨due, warning, hr, hw⟩ := h.ready hc
  refine ⟨{ a with warning, acceleration := .zero }, if due then a.untrustedWarning else [], ?_, rfl, hw⟩
  rw [distrust, bind_eq_ok]
  exact ⟨(due, warning), hr, rfl⟩

/-- A sensor message that is published leaves what is to be remembered of it, and one that fails
leaves the memory alone. -/
theorem sensors_acceleration (h : a.warning.Steady) (hc : env.FloatClock) (r : SensorReading) :
    (a.sensors env r).assembler.warning.Steady ∧
    (a.sensors env r).assembler.acceleration =
      if (a.sensors env r).outputs.isOk then r.remembered a.acceleration else a.acceleration := by
  cases hh : Header.atDeviceTime env.offset (env.wall 0) a.labels.frameId (.real r.deviceTime) with
  | error f => simpa [sensors, hh, Except.isOk, Except.toBool] using h
  | ok header =>
    have hw : (a.remember r.inertial).warning.Steady := by rwa [remember_warning]
    cases hu : r.accelerationUntrusted with
    | true =>
      obtain ⟨a', log, hd, hz, hw'⟩ := distrust_ok hw hc
      simpa [sensors, hh, hu, hd, SensorReading.remembered, hz, Except.isOk, Except.toBool] using hw'
    | false =>
      simpa [sensors, hh, hu, SensorReading.remembered, remember_acceleration, Except.isOk,
        Except.toBool] using hw

theorem sensors_fault (h : a.warning.Steady) (hc : env.FloatClock) {r : SensorReading} {f : Fault}
    (hf : (a.sensors env r).outputs = .error f) :
    Header.atDeviceTime env.offset (env.wall 0) a.labels.frameId (.real r.deviceTime) = .error f := by
  cases hh : Header.atDeviceTime env.offset (env.wall 0) a.labels.frameId (.real r.deviceTime) with
  | error g => simpa [sensors, hh] using hf
  | ok header =>
    have hw : (a.remember r.inertial).warning.Steady := by rwa [remember_warning]
    obtain ⟨a', log, hd, -, -⟩ := distrust_ok hw hc
    cases hu : r.accelerationUntrusted <;> simp [sensors, hh, hu, hd] at hf

/-- Both views of an attitude repeat the memory. -/
theorem attitude_outputs (a : Assembler) (env : Ambient) (r : AttitudeReading) :
    (∃ enu ned, (a.attitude env r).outputs =
        .ok [⟨a.labels.topics.data, .imu enu⟩, ⟨a.labels.topics.dataNed, .imu ned⟩] ∧
      enu.linearAcceleration = a.acceleration.enu ∧ ned.linearAcceleration = a.acceleration.ned) ∨
    ∃ f, (a.attitude env r).outputs = .error f ∧ ∃ reading frame,
      Header.atDeviceTime env.offset (env.wall reading) frame (.real r.deviceTime) = .error f := by
  cases he : Header.atDeviceTime env.offset (env.wall 0) a.labels.frameId (.real r.deviceTime) with
  | error f =>
    refine .inr ⟨f, ?_, 0, a.labels.frameId, he⟩
    simp [attitude, attitudePair, he, bind, Except.bind]
  | ok header =>
    cases hn : Header.atDeviceTime env.offset (env.wall 1) aircraftFrame (.real r.deviceTime) with
    | error f =>
      refine .inr ⟨f, ?_, 1, aircraftFrame, hn⟩
      simp [attitude, attitudePair, he, hn, bind, Except.bind]
    | ok header' =>
      refine .inl ⟨a.attitudeRecord header r.orientation.enu a.labels.orientation r.angularVelocity.enu
          a.acceleration.enu,
        a.attitudeRecord header' r.orientation.ned .unknown r.angularVelocity.ned a.acceleration.ned,
        ?_, rfl, rfl⟩
      simp [attitude, attitudePair, he, hn, bind, Except.bind, pure, Except.pure]

end Assembler

def Reading.deviceTime : Reading → Float
  | attitude r => r.deviceTime
  | sensors r => r.deviceTime

/-- The fault with which a message cannot be read, or a record of it cannot be stamped. -/
def Message.Unfit (m : Message) (env : Ambient) (f : Fault) : Prop :=
  Reading.ofMessage m env.ardupilot = .error f ∨
  ∃ r reading frame, Reading.ofMessage m env.ardupilot = .ok r ∧
    Header.atDeviceTime env.offset (env.wall reading) frame (.real r.deviceTime) = .error f

/-- A message about the attitude has no other reading. -/
theorem Message.attitude_of_reading {m : Message} {ardupilot : Bool} {r : Reading}
    (hm : m.kind.quantity = .attitude) (h : Reading.ofMessage m ardupilot = .ok r) :
    ∃ a, r = .attitude a := by
  cases m <;> simp only [kind, Kind.quantity, reduceCtorEq] at hm <;>
    simp only [Reading.ofMessage, map_eq_ok] at h
  all_goals
    obtain ⟨a, -, rfl⟩ := h
    exact ⟨a, rfl⟩

theorem Message.hasInertial_eq_false {m : Message} {ardupilot : Bool} {r : AttitudeReading}
    (h : Reading.ofMessage m ardupilot = .ok (.attitude r)) : m.hasInertial = false := by
  cases m <;> simp only [Reading.ofMessage, map_eq_ok, reduceCtorEq, and_false, exists_false] at h <;> rfl

/-- A message that decides what is remembered, with the firmware it came from. -/
abbrev Imprint := Message × Bool

/-- The memory after the last imprint, where `before` was before all of them. -/
inductive Imprint.Follows : Option Imprint → VectorPair → VectorPair → Prop
  | unchanged (before : VectorPair) : Follows none before before
  | left {m : Message} {ardupilot : Bool} {after : VectorPair} (before : VectorPair)
      (h : m.Leaves ardupilot after) : Follows (some (m, ardupilot)) before after

theorem Imprint.Follows.eq {p q : VectorPair} (h : Follows none p q) : q = p := by
  cases h
  rfl

theorem Imprint.Follows.trans {i j : Option Imprint} {p q r : VectorPair} (hi : Follows i p q)
    (hj : Follows j q r) : Follows (j.or i) p r := by
  cases hj with
  | unchanged => exact hi
  | left _ h => exact .left p h

namespace Node
variable {n : Node} {env : Ambient} {m : Message}

/-- A call leaves an imprint if its message is accepted, is processed without a fault, and carries
an inertial group. -/
def imprint? (n : Node) : Call → Option Imprint
  | .handle env m =>
    if (n.arbiter.accept m.kind).accepted && (n.offer env m).outputs.isOk && m.hasInertial then
      some (m, env.ardupilot)
    else none
  | .connectionChanged _ => none

/-- The imprints of calls in their order. -/
def imprints (n : Node) : List Call → List Imprint
  | [] => []
  | c :: calls => (n.imprint? c).toList ++ (n.after c).imprints calls

theorem follows_of_sensors {r : SensorReading} (h : n.assembler.warning.Steady) (hc : env.FloatClock)
    (hr : Reading.ofMessage m env.ardupilot = .ok (.sensors r)) :
    Imprint.Follows (if (n.assembler.sensors env r).outputs.isOk && m.hasInertial then
        some (m, env.ardupilot) else none)
      n.assembler.acceleration (n.assembler.sensors env r).assembler.acceleration := by
  rw [(Assembler.sensors_acceleration h hc r).2]
  have hl := Message.leaves_of_reading hr n.assembler.acceleration
  cases (n.assembler.sensors env r).outputs.isOk with
  | false => exact .unchanged _
  | true =>
    cases hi : m.hasInertial with
    | false =>
      have hu : r.remembered n.assembler.acceleration = n.assembler.acceleration := by
        rw [hi] at hl; exact hl
      simpa [hu] using Imprint.Follows.unchanged n.assembler.acceleration
    | true => rw [hi] at hl; exact .left _ hl

theorem offer_acceleration (h : n.assembler.warning.Steady) (hc : env.FloatClock) (m : Message) :
    (n.offer env m).node.assembler.warning.Steady ∧
    Imprint.Follows (n.imprint? (.handle env m)) n.assembler.acceleration
      (n.offer env m).node.assembler.acceleration := by
  cases ha : (n.arbiter.accept m.kind).accepted with
  | false =>
    simp only [imprint?, ha, offer_refused ha, Bool.false_and]
    exact ⟨h, .unchanged _⟩
  | true =>
    cases hr : Reading.ofMessage m env.ardupilot with
    | error f =>
      simp only [imprint?, ha, offer_unread ha hr, Except.isOk, Except.toBool, Bool.and_false,
        Bool.false_and]
      exact ⟨h, .unchanged _⟩
    | ok r =>
      simp only [imprint?, offer_read ha hr, ha, Bool.true_and]
      cases r with
      | attitude r =>
        obtain ⟨last, hf⟩ := n.assembler.attitude_frame env r
        simp only [Assembler.assemble, hf, Message.hasInertial_eq_false hr, Bool.and_false]
        exact ⟨h, .unchanged _⟩
      | sensors r =>
        exact ⟨(Assembler.sensors_acceleration h hc r).1, follows_of_sensors h hc hr⟩

theorem after_acceleration (h : n.assembler.warning.Steady) {c : Call} (hc : c.FloatClock) :
    (n.after c).assembler.warning.Steady ∧
    Imprint.Follows (n.imprint? c) n.assembler.acceleration (n.after c).assembler.acceleration := by
  cases c with
  | handle env m => exact offer_acceleration h hc m
  | connectionChanged connected => exact ⟨h, .unchanged _⟩

theorem imprints_run (h : n.assembler.warning.Steady) {calls : List Call}
    (hc : ∀ call ∈ calls, call.FloatClock) :
    (n.run calls).assembler.warning.Steady ∧
    Imprint.Follows (n.imprints calls).getLast? n.assembler.acceleration
      (n.run calls).assembler.acceleration := by
  induction calls generalizing n with
  | nil => exact ⟨h, .unchanged _⟩
  | cons c calls ih =>
    obtain ⟨hw, hf⟩ := after_acceleration h (hc c (by simp))
    obtain ⟨hw', hf'⟩ := ih hw fun call hm => hc call (by simp [hm])
    -- the first call decides only where the others leave no imprint
    have hi : (n.imprint? c).toList.getLast? = n.imprint? c := by cases n.imprint? c <;> rfl
    rw [run_cons, imprints, List.getLast?_append, hi]
    exact ⟨hw', hf.trans hf'⟩

theorem steady_of_ofConfig {c : ImuConfig} (hn : ofConfig c = .ok n) : n.assembler.warning.Steady := by
  obtain ⟨labels, -, rfl⟩ := ofConfig_eq_ok.1 hn
  simp [Throttle.Steady]

theorem run_steady {c : ImuConfig} (hn : ofConfig c = .ok n) {calls : List Call}
    (hc : ∀ call ∈ calls, call.FloatClock) : (n.run calls).assembler.warning.Steady :=
  (imprints_run (steady_of_ofConfig hn) hc).1

/-- Only what cannot be read or stamped keeps a message from being processed. -/
theorem unfit_of_fault (h : n.assembler.warning.Steady) (hc : env.FloatClock) {f : Fault}
    (hf : (n.offer env m).outputs = .error f) : m.Unfit env f := by
  cases ha : (n.arbiter.accept m.kind).accepted with
  | false => rw [offer_refused ha] at hf; cases hf
  | true =>
    cases hr : Reading.ofMessage m env.ardupilot with
    | error g =>
      rw [offer_unread ha hr] at hf
      cases hf
      exact .inl hr
    | ok r =>
      rw [offer_read ha hr] at hf
      cases r with
      | sensors r => exact .inr ⟨_, 0, _, hr, Assembler.sensors_fault h hc hf⟩
      | attitude r =>
        rcases n.assembler.attitude_outputs env r with ⟨_, _, ho, -⟩ | ⟨g, ho, reading, frame, hg⟩
        · rw [Assembler.assemble, ho] at hf
          cases hf
        · rw [Assembler.assemble, ho] at hf
          cases hf
          exact .inr ⟨_, reading, frame, hr, hg⟩

end Node

/-- What a sink is handed for an accepted message about the attitude, or why it is handed nothing. -/
theorem Station.attitude_published {σ : Type} (sink : Sink σ) (t : Station σ) (env : Ambient) {m : Message}
    (hm : m.kind.quantity = .attitude) (ha : (t.node.arbiter.accept m.kind).accepted = true) :
    let topics := t.node.assembler.labels.topics
    let reply := t.reply sink (.handle env m)
    (∃ enu ned, Curtailed [⟨topics.data, .imu enu⟩, ⟨topics.dataNed, .imu ned⟩] reply.attempts ∧
      enu.linearAcceleration = t.node.assembler.acceleration.enu ∧
      ned.linearAcceleration = t.node.assembler.acceleration.ned) ∨
    ∃ f, m.Unfit env f ∧ reply.result = .error f ∧ reply.attempts = [] ∧
      (t.call sink (.handle env m)).sink = t.sink := by
  intro topics reply
  have failed {f : Fault} (ho : (t.node.offer env m).outputs = .error f) :
      reply.result = .error f ∧ reply.attempts = [] ∧ (t.call sink (.handle env m)).sink = t.sink :=
    ⟨result_of_error ho, attempts_of_error ho, Node.handle_sink_of_error sink t.sink ho⟩
  cases hr : Reading.ofMessage m env.ardupilot with
  | error f =>
    exact .inr ⟨f, .inl hr, failed (by rw [Node.offer_unread ha hr])⟩
  | ok r =>
    obtain ⟨r, rfl⟩ := Message.attitude_of_reading hm hr
    have ho : (t.node.offer env m).outputs = (t.node.assembler.attitude env r).outputs := by
      rw [Node.offer_read ha hr]; rfl
    rcases t.node.assembler.attitude_outputs env r with ⟨enu, ned, h, he, hn⟩ | ⟨f, h, reading, frame, hf⟩
    · have hp : reply.attempts = sink.attempts _ t.sink := attempts_of_ok (ho.trans h)
      exact .inl ⟨enu, ned, hp ▸ sink.attempts_curtailed _ _, he, hn⟩
    · exact .inr ⟨f, .inr ⟨_, reading, frame, hr, hf⟩, failed (ho.trans h)⟩

namespace Node
variable {n : Node} {env : Ambient} {m : Message}

/-- After any calls on a new node, whatever its sink does, the memory is decided by the last imprint
alone; a call without an imprint leaves it as it was; a message fails to be processed only if it
cannot be read or stamped. For an accepted message about the attitude the sink is handed both halves
of the memory, each in its record and on its topic, unless the message fails; it misses a record
only if it has refused the one before. -/
theorem run_acceleration {σ : Type} (sink : Sink σ) (s : σ) {c : ImuConfig} {n : Node}
    (hn : ofConfig c = .ok n) {calls : List Call} (hc : ∀ call ∈ calls, call.FloatClock) :
    let t := Station.run sink ⟨n, s⟩ calls
    Imprint.Follows (n.imprints calls).getLast? .zero t.node.assembler.acceleration ∧
    (∀ call : Call, call.FloatClock → t.node.imprint? call = none →
      (t.call sink call).node.assembler.acceleration = t.node.assembler.acceleration) ∧
    (∀ env m f, env.FloatClock → (t.node.offer env m).outputs = .error f → m.Unfit env f) ∧
    ∀ env m, m.kind.quantity = .attitude → (t.node.arbiter.accept m.kind).accepted = true →
      let reply := t.reply sink (.handle env m)
      (∃ enu ned, Curtailed [⟨c.topics.data, .imu enu⟩, ⟨c.topics.dataNed, .imu ned⟩] reply.attempts ∧
        enu.linearAcceleration = t.node.assembler.acceleration.enu ∧
        ned.linearAcceleration = t.node.assembler.acceleration.ned) ∨
      ∃ f, m.Unfit env f ∧ reply.result = .error f ∧ reply.attempts = [] ∧
        (t.call sink (.handle env m)).sink = t.sink := by
  intro t
  obtain ⟨labels, hl, rfl⟩ := ofConfig_eq_ok.1 hn
  have hnode : t.node = ({ assembler := { labels } } : Node).run calls := Station.run_node sink _ calls
  obtain ⟨hw, hf⟩ := imprints_run (steady_of_ofConfig hn) hc
  rw [← hnode] at hw hf
  refine ⟨hf, fun call hcall hi => ?_, fun env m f henv => unfit_of_fault hw henv, fun env m hm ha => ?_⟩
  · rw [Station.call_node]
    have hu := (after_acceleration hw hcall).2
    rw [hi] at hu
    exact hu.eq
  · have ht : t.node.assembler.labels.topics = c.topics := by
      rw [hnode, run_labels]
      exact (Labels.topics_of_ofConfig hl).2
    rw [← ht]
    exact t.attitude_published sink env hm ha

/-- A message with its acceleration in thousandths, and an attitude after it. -/
theorem run_acceleration_scaled :
    let c : ImuConfig := ⟨"base_link", 0, 0, 0, 0, {}⟩
    let n : Node :=
      { assembler := { labels := ⟨"base_link", {}, .unknown, .unknown, .unknown, .unknown⟩ } }
    let zero : Vec3 Num := ⟨.int 0, .int 0, .int 0⟩
    let m : Message := .scaledImu ⟨.int 0, ⟨.int 0, .int 0, .int (-1000)⟩, zero, zero⟩
    let q : Message := .attitudeQuaternion ⟨.int 5, ⟨.int 1, .int 0, .int 0, .int 0⟩, zero⟩
    let t := Station.run Sink.recording ⟨n, []⟩ [.handle {} m]
    ofConfig c = .ok n ∧ (∀ call ∈ [Call.handle {} m], call.FloatClock) ∧
      Imprint.Follows (some (m, false)) .zero t.node.assembler.acceleration ∧
      ∃ enu ned, (t.reply Sink.recording (.handle {} q)).attempts.map (·.output) =
          [⟨"imu/data", .imu enu⟩, ⟨"imu/data_ned", .imu ned⟩] ∧
        enu.linearAcceleration = t.node.assembler.acceleration.enu ∧ ned.linearAcceleration.z = -9.80665 := by
  intro c n zero m q t
  have hn : ofConfig c = .ok n := ofConfig_zero "base_link" {}
  have hc : ∀ call ∈ [Call.handle {} m], call.FloatClock := by
    simpa [Call.FloatClock] using ⟨0, rfl⟩
  have hi : (n.imprints [.handle {} m]).getLast? = some (m, false) := by decide +kernel
  have ht : Station.run Sink.recording ⟨n, []⟩ [.handle {} m] = t := rfl
  obtain ⟨hf, -, -, hq⟩ := run_acceleration Sink.recording ([] : List Output) hn hc
  rw [hi, ht] at hf
  rw [ht] at hq
  have hr : (t.reply Sink.recording (.handle {} q)).result = .ok (some 2) := by decide +kernel
  have htaken : ∀ a ∈ (t.reply Sink.recording (.handle {} q)).attempts, a.fault = none := by decide +kernel
  have hd : t.node.assembler.acceleration.ned.z = -9.80665 := by decide +kernel
  rcases hq {} q rfl (by decide +kernel) with ⟨enu, ned, ho, he, hned⟩ | ⟨f, -, hfault, -, -⟩
  · exact ⟨hn, hc, hf, enu, ned, ho.all_of_taken htaken, he, by rw [hned, hd]⟩
  · cases hr.symm.trans hfault

end Node
end InertialRelay
