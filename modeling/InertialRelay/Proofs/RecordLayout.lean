import InertialRelay.Proofs.AccelerationMemory
import InertialRelay.Proofs.SharedStamps
import InertialRelay.Proofs.StartUp

/-!
# The records of a message

`Station.records_laid_out`: which records a message publishes, on which topics and in which order, with every field
of theirs. An attitude is published in its two views; any other message has one record per group of values that it
carries (`Message.Carries`), the groups of a high resolution message being those that its flags announce. Frames,
topics and covariances are those of the configuration, which a node works out once. A covariance holds the square of
a standard deviation as the platform raises it to a power, which need not be the product to the last bit.
-/

namespace InertialRelay

/-- The groups of values that a message of the sensors can carry, in the order of their records. -/
inductive Group where
  | inertial
  | magneticField
  | fluidPressure
  | temperature
  deriving DecidableEq

namespace Group

def all : List Group := [inertial, magneticField, fluidPressure, temperature]

/-- The flags of a high resolution message that announce a group. -/
def bits : Group → List Nat
  | inertial => [0, 1, 2, 3, 4, 5]
  | magneticField => [6, 7, 8]
  | fluidPressure => [9]
  | temperature => [12]

def mask : Group → Nat
  | inertial => HighresImu.accelGyroMask
  | magneticField => HighresImu.magMask
  | fluidPressure => HighresImu.absPressureMask
  | temperature => HighresImu.temperatureMask

theorem mask_testBit (g : Group) (i : Nat) : g.mask.testBit i = true ↔ i ∈ g.bits := by
  rcases Nat.lt_or_ge i 16 with hi | hi
  · cases g <;> revert i <;> decide
  · have hm : g.mask < 2 ^ 16 := by cases g <;> decide
    have hb : ∀ j ∈ g.bits, j < 16 := by cases g <;> decide
    rw [Nat.testBit_lt_two_pow (Nat.lt_of_lt_of_le hm (Nat.pow_le_pow_right (by decide) hi))]
    exact iff_of_false nofun fun hmem => absurd (hb i hmem) (by omega)

theorem hasAny_mask {flags : Int} (g : Group) :
    HighresImu.hasAny flags g.mask = true ↔ ∃ i ∈ g.bits, flags.testBit i = true := by
  rw [HighresImu.hasAny_iff (by cases g <;> decide)]
  simp only [mask_testBit]

end Group

/-- Whether a message carries a group. -/
def Message.Carries : Message → Group → Prop
  | attitude _, _ | attitudeQuaternion _, _ => False
  | highresImu m, g => ∃ flags, m.fieldsUpdated.toInt = .ok flags ∧ ∃ i ∈ g.bits, flags.testBit i = true
  | rawImu _, g | scaledImu _, g => g = .inertial ∨ g = .magneticField
  | scaledPressure _, g => g = .fluidPressure ∨ g = .temperature

/-- Whether a reading holds a group. -/
def SensorReading.holds (r : SensorReading) : Group → Bool
  | .inertial => r.inertial.isSome
  | .magneticField => r.magneticField.isSome
  | .fluidPressure => r.fluidPressure.isSome
  | .temperature => r.temperature.isSome

namespace Reading

theorem isSome_of_guarded {α : Type} {present : Bool} {value : Except Fault α} {o : Option α}
    (h : guarded present value = .ok o) : o.isSome = present := by
  rcases guarded_eq_ok.1 h with ⟨rfl, a, -, rfl⟩ | ⟨rfl, rfl⟩
  · rfl
  · rfl

theorem holds_of_ofHighresImu {m : HighresImu} {r : SensorReading} (h : ofHighresImu m = .ok r) :
    ∃ flags, m.fieldsUpdated.toInt = .ok flags ∧ ∀ g : Group, r.holds g = HighresImu.hasAny flags g.mask := by
  simp only [ofHighresImu, bind_eq_ok, pure_eq_ok] at h
  obtain ⟨time, -, flags, hf, inertial, hi, magneticField, hm, fluidPressure, hp, temperature, ht, rfl⟩ := h
  refine ⟨flags, hf, fun g => ?_⟩
  cases g with
  | inertial => exact isSome_of_guarded hi
  | magneticField => exact isSome_of_guarded hm
  | fluidPressure => exact isSome_of_guarded hp
  | temperature => exact isSome_of_guarded ht

/-- A reading holds the groups that its message carries. -/
theorem holds_iff_carries {m : Message} {ardupilot : Bool} {r : SensorReading}
    (h : ofMessage m ardupilot = .ok (.sensors r)) (g : Group) : r.holds g = true ↔ m.Carries g := by
  cases m <;> simp only [ofMessage, map_eq_ok, reduceCtorEq, and_false, exists_false, sensors.injEq,
    exists_eq_right] at h
  case highresImu m =>
    obtain ⟨flags, hf, hg⟩ := holds_of_ofHighresImu h
    rw [hg, Group.hasAny_mask]
    simp [Message.Carries, hf]
  case rawImu m =>
    obtain ⟨gyro, acc, mag, time, -, -, -, -, rfl⟩ := ofRawImu_eq_ok.1 h
    cases g <;> simp [SensorReading.holds, Message.Carries]
  case scaledImu m =>
    obtain ⟨gyro, acc, mag, time, -, -, -, -, rfl⟩ := ofScaledImu_eq_ok.1 h
    cases g <;> simp [SensorReading.holds, Message.Carries]
  case scaledPressure m =>
    obtain ⟨time, pressure, temperature, -, -, -, rfl⟩ := ofScaledPressure_eq_ok.1 h
    cases g <;> simp [SensorReading.holds, Message.Carries]

/-- Messages that are not about the attitude are read as messages of the sensors. -/
theorem sensors_of_ofMessage {m : Message} {ardupilot : Bool} {r : Reading} (hm : m.kind.quantity ≠ .attitude)
    (h : ofMessage m ardupilot = .ok r) : ∃ s, r = .sensors s := by
  cases m <;> simp only [Message.kind, Kind.quantity, ne_eq, not_true_eq_false] at hm <;>
    simp only [ofMessage, map_eq_ok] at h
  all_goals
    obtain ⟨s, -, rfl⟩ := h
    exact ⟨s, rfl⟩

end Reading

/-- The covariance of independent components with one standard deviation, zero meaning that it is not known. -/
def Covariance.ofDeviation (s : Float) : Covariance := if s == 0 then .unknown else .diagonal (s.pow 2)

theorem Covariance.eq_of_square {x v : Float} (h : square x = .ok v) : v = x.pow 2 := by
  simp only [square] at h
  split at h
  · cases h
  · exact (Except.ok.inj h).symm

theorem Covariance.eq_of_ofStdev {s : Float} {c : Covariance} (h : ofStdev (.real s) = .ok c) :
    c = .ofDeviation s := by
  unfold ofStdev at h
  split at h
  next hz =>
    have hz : (s == 0) = true := hz
    rw [ofDeviation, if_pos hz]
    exact (Except.ok.inj h).symm
  next hz =>
    have hz : ¬ (s == 0) = true := hz
    simp only [bind_eq_ok, pure_eq_ok] at h
    obtain ⟨_, ⟨⟩, v, hv, rfl⟩ := h
    rw [ofDeviation, if_neg hz, eq_of_square hv]

theorem Labels.eq_of_ofConfig {c : ImuConfig} {l : Labels} (h : ofConfig c = .ok l) :
    l = ⟨c.frameId, c.topics, .ofDeviation c.linearAccelerationStdev, .ofDeviation c.angularVelocityStdev,
      .ofDeviation c.orientationStdev, .ofDeviation c.magneticStdev⟩ := by
  simp only [ofConfig, bind_eq_ok, pure_eq_ok] at h
  obtain ⟨_, ha, _, hv, _, ho, _, hm, rfl⟩ := h
  rw [Covariance.eq_of_ofStdev ha, Covariance.eq_of_ofStdev hv, Covariance.eq_of_ofStdev ho,
    Covariance.eq_of_ofStdev hm]

namespace ImuConfig

/-- The two records of an attitude, with their headers and the acceleration that they repeat. -/
def attitudeOutputs (c : ImuConfig) (enu ned : Header) (r : AttitudeReading) (acceleration : VectorPair) :
    List Output :=
  [⟨c.topics.data, .imu
      { header := enu
        orientation := r.orientation.enu
        orientationCovariance := .ofDeviation c.orientationStdev
        angularVelocity := r.angularVelocity.enu
        angularVelocityCovariance := .ofDeviation c.angularVelocityStdev
        linearAcceleration := acceleration.enu
        linearAccelerationCovariance := .ofDeviation c.linearAccelerationStdev }⟩,
    ⟨c.topics.dataNed, .imu
      { header := ned
        orientation := r.orientation.ned
        orientationCovariance := .unknown
        angularVelocity := r.angularVelocity.ned
        angularVelocityCovariance := .ofDeviation c.angularVelocityStdev
        linearAcceleration := acceleration.ned
        linearAccelerationCovariance := .ofDeviation c.linearAccelerationStdev }⟩]

/-- The record of a group, if a reading holds it. -/
def groupOutput? (c : ImuConfig) (header : Header) (r : SensorReading) : Group → Option Output
  | .inertial => r.inertial.map fun i => ⟨c.topics.dataRaw, .imu
      { header
        orientation := ⟨1, 0, 0, 0⟩
        orientationCovariance := .unknown
        angularVelocity := i.angularVelocity.enu
        angularVelocityCovariance := .ofDeviation c.angularVelocityStdev
        linearAcceleration := i.acceleration.enu
        linearAccelerationCovariance := .ofDeviation c.linearAccelerationStdev }⟩
  | .magneticField => r.magneticField.map fun b => ⟨c.topics.mag, .magneticField
      { header, magneticField := b, magneticFieldCovariance := .ofDeviation c.magneticStdev }⟩
  | .fluidPressure => r.fluidPressure.map fun p => ⟨c.topics.atmPressure, .fluidPressure
      { header, fluidPressure := p, variance := 0 }⟩
  | .temperature => r.temperature.map fun t => ⟨c.topics.temperature, .temperature
      { header, temperature := t, variance := 0 }⟩

/-- The records of the groups that a reading holds. -/
def sensorOutputs (c : ImuConfig) (header : Header) (r : SensorReading) : List Output :=
  Group.all.filterMap (c.groupOutput? header r)

end ImuConfig

theorem Header.frameId_of_ofStamp {stamp : Num} {frame : String} {h : Header} (hs : ofStamp stamp frame = .ok h) :
    h.frameId = frame := by
  cases stamp with
  | real x =>
    cases hs
    rfl
  | int n =>
    delta ofStamp at hs
    dsimp only at hs
    split at hs
    · cases hs
      rfl
    · cases hs

theorem Header.frameId_of_atDeviceTime {offset : Option Num} {wall time : Num} {frame : String} {h : Header}
    (hs : atDeviceTime offset wall frame time = .ok h) : h.frameId = frame := by
  unfold atDeviceTime at hs
  split at hs
  · exact frameId_of_ofStamp hs
  · split at hs
    · exact frameId_of_ofStamp hs
    · obtain ⟨stamp, -, hs⟩ := bind_eq_ok.1 hs
      exact frameId_of_ofStamp hs

namespace Assembler
variable {a : Assembler} {c : ImuConfig} {env : Ambient} {outputs : List Output}

theorem attitude_outputs_of_ofConfig (hl : Labels.ofConfig c = .ok a.labels) {r : AttitudeReading}
    (h : (a.attitude env r).outputs = .ok outputs) :
    ∃ enu ned, Header.atDeviceTime env.offset (env.wall 0) c.frameId (.real r.deviceTime) = .ok enu ∧
      Header.atDeviceTime env.offset (env.wall 1) "aircraft" (.real r.deviceTime) = .ok ned ∧
      outputs = c.attitudeOutputs enu ned r a.acceleration := by
  unfold attitude at h
  split at h
  · cases h
  next pair hp =>
    simp only [attitudePair, bind_eq_ok, pure_eq_ok] at hp
    obtain ⟨enu, he, ned, hn, rfl⟩ := hp
    cases h
    have hlabels := Labels.eq_of_ofConfig hl
    rw [hlabels] at he
    refine ⟨enu, ned, he, hn, ?_⟩
    rw [ImuConfig.attitudeOutputs]
    simp only [attitudeRecord, hlabels]

theorem sensorOutputs_of_ofConfig (hl : Labels.ofConfig c = .ok a.labels) (header : Header) (r : SensorReading) :
    a.sensorOutputs header r = c.sensorOutputs header r := by
  rw [ImuConfig.sensorOutputs, List.filterMap_eq_flatMap_toList, sensorOutputs, Labels.eq_of_ofConfig hl]
  simp only [Group.all, List.flatMap_cons, List.flatMap_nil, List.append_nil, List.append_assoc]
  simp only [ImuConfig.groupOutput?, rawRecord, Labels.eq_of_ofConfig hl]

theorem sensors_outputs_of_ofConfig (hl : Labels.ofConfig c = .ok a.labels) {r : SensorReading}
    (h : (a.sensors env r).outputs = .ok outputs) :
    ∃ header, Header.atDeviceTime env.offset (env.wall 0) c.frameId (.real r.deviceTime) = .ok header ∧
      outputs = c.sensorOutputs header r := by
  obtain ⟨header, hh, rfl⟩ := sensors_outputs_eq_ok h
  rw [(Labels.topics_of_ofConfig hl).1] at hh
  exact ⟨header, hh, sensorOutputs_of_ofConfig hl header r⟩

end Assembler

namespace Node
variable {n : Node} {c : ImuConfig} {env : Ambient} {m : Message} {outputs : List Output}

theorem attitude_offer_outputs (hl : Labels.ofConfig c = .ok n.assembler.labels)
    (hm : m.kind.quantity = .attitude) (ha : (n.arbiter.accept m.kind).accepted = true)
    (h : (n.offer env m).outputs = .ok outputs) :
    ∃ r enu ned, Reading.ofMessage m env.ardupilot = .ok (.attitude r) ∧
      Header.atDeviceTime env.offset (env.wall 0) c.frameId (.real r.deviceTime) = .ok enu ∧
      Header.atDeviceTime env.offset (env.wall 1) "aircraft" (.real r.deviceTime) = .ok ned ∧
      outputs = c.attitudeOutputs enu ned r n.assembler.acceleration := by
  cases hr : Reading.ofMessage m env.ardupilot with
  | error f =>
    rw [offer_unread ha hr] at h
    cases h
  | ok r =>
    obtain ⟨r, rfl⟩ := Message.attitude_of_reading hm hr
    rw [offer_read ha hr] at h
    obtain ⟨enu, ned, he, hn, ho⟩ := Assembler.attitude_outputs_of_ofConfig hl h
    exact ⟨r, enu, ned, rfl, he, hn, ho⟩

theorem sensors_offer_outputs (hl : Labels.ofConfig c = .ok n.assembler.labels)
    (hm : m.kind.quantity ≠ .attitude) (ha : (n.arbiter.accept m.kind).accepted = true)
    (h : (n.offer env m).outputs = .ok outputs) :
    ∃ r header, Reading.ofMessage m env.ardupilot = .ok (.sensors r) ∧
      Header.atDeviceTime env.offset (env.wall 0) c.frameId (.real r.deviceTime) = .ok header ∧
      outputs = c.sensorOutputs header r := by
  cases hr : Reading.ofMessage m env.ardupilot with
  | error f =>
    rw [offer_unread ha hr] at h
    cases h
  | ok r =>
    obtain ⟨r, rfl⟩ := Reading.sensors_of_ofMessage hm hr
    rw [offer_read ha hr] at h
    obtain ⟨header, hh, ho⟩ := Assembler.sensors_outputs_of_ofConfig hl h
    exact ⟨r, header, rfl, hh, ho⟩

end Node

namespace Station
variable {σ : Type}

/-- What a sink is handed for a message that is accepted and processed without a fault, after any calls on a new
node. Both records of an attitude repeat the acceleration that the node remembers. -/
theorem records_laid_out (sink : Sink σ) (s : σ) {c : ImuConfig} {n : Node} (hn : Node.ofConfig c = .ok n)
    (calls : List Node.Call) (env : Ambient) (m : Message) :
    let t := run sink ⟨n, s⟩ calls
    let reply := t.reply sink (.handle env m)
    ∀ count, (t.node.arbiter.accept m.kind).accepted = true → reply.result = .ok (some count) →
      (m.kind.quantity = .attitude → ∃ r enu ned, Reading.ofMessage m env.ardupilot = .ok (.attitude r) ∧
        Header.atDeviceTime env.offset (env.wall 0) c.frameId (.real r.deviceTime) = .ok enu ∧
        Header.atDeviceTime env.offset (env.wall 1) "aircraft" (.real r.deviceTime) = .ok ned ∧
        enu.frameId = c.frameId ∧ ned.frameId = "aircraft" ∧
        reply.attempts.map (·.output) = c.attitudeOutputs enu ned r t.node.assembler.acceleration) ∧
      (m.kind.quantity ≠ .attitude → ∃ r header, Reading.ofMessage m env.ardupilot = .ok (.sensors r) ∧
        Header.atDeviceTime env.offset (env.wall 0) c.frameId (.real r.deviceTime) = .ok header ∧
        header.frameId = c.frameId ∧ (∀ g, r.holds g = true ↔ m.Carries g) ∧
        reply.attempts.map (·.output) = c.sensorOutputs header r) := by
  intro t reply count ha hcount
  have hl : Labels.ofConfig c = .ok t.node.assembler.labels := by
    obtain ⟨labels, hl, rfl⟩ := Node.ofConfig_eq_ok.1 hn
    rw [run_node, Node.run_labels, hl]
  obtain ⟨outputs, ho, hp⟩ := handed_of_result hcount
  rw [hp]
  refine ⟨fun hm => ?_, fun hm => ?_⟩
  · obtain ⟨r, enu, ned, hread, he, hd, rfl⟩ := Node.attitude_offer_outputs hl hm ha ho
    exact ⟨r, enu, ned, hread, he, hd, Header.frameId_of_atDeviceTime he, Header.frameId_of_atDeviceTime hd, rfl⟩
  · obtain ⟨r, header, hread, hh, rfl⟩ := Node.sensors_offer_outputs hl hm ha ho
    exact ⟨r, header, hread, hh, Header.frameId_of_atDeviceTime hh, Reading.holds_iff_carries hread, rfl⟩

/-- A high resolution message that announces acceleration and temperature, with settings of its own. -/
theorem records_laid_out_highres :
    let c : ImuConfig := ⟨"imu", 0.5, 0, 1, 2, {}⟩
    let n : Node :=
      { assembler := { labels := ⟨"imu", {}, .ofDeviation 0.5, .unknown, .ofDeviation 1, .ofDeviation 2⟩ } }
    let zero : Vec3 Num := ⟨.int 0, .int 0, .int 0⟩
    let m : Message :=
      .highresImu ⟨.int 1000000, ⟨.int 1, .int 2, .int 3⟩, zero, zero, .int 0, .int 0, .int 0, .int 20, .int 4097⟩
    let reply := reply Sink.recording ⟨n, []⟩ (.handle { offset := some (.real 1) } m)
    Node.ofConfig c = .ok n ∧ (n.arbiter.accept m.kind).accepted = true ∧ reply.result = .ok (some 2) ∧
      reply.attempts.map (·.output.topic) = ["imu/data_raw", "imu/temperature"] ∧
      ∃ r header, header.frameId = "imu" ∧ (∀ g, r.holds g = true ↔ m.Carries g) ∧
        reply.attempts.map (·.output) = c.sensorOutputs header r := by
  intro c n zero m reply
  have hs : ∀ x ∈ c.stdevs, Binary64.Squarable x := by
    simp only [ImuConfig.stdevs, List.forall_mem_cons, Binary64.squarable_iff]
    decide +kernel
  obtain ⟨labels, hl⟩ := Labels.ofConfig_eq_ok.2 hs
  have hn : Node.ofConfig c = .ok n := by
    rw [Node.ofConfig_eq_ok]
    have hz : Covariance.ofDeviation c.angularVelocityStdev = .unknown := if_pos (by decide +kernel)
    exact ⟨labels, hl, by rw [Labels.eq_of_ofConfig hl, hz]⟩
  have hr : reply.result = .ok (some 2) := by decide +kernel
  have ht : reply.attempts.map (·.output.topic) = ["imu/data_raw", "imu/temperature"] := by decide +kernel
  refine ⟨hn, rfl, hr, ht, ?_⟩
  obtain ⟨r, header, -, -, hf, hg, hp⟩ :=
    (records_laid_out Sink.recording [] hn [] { offset := some (.real 1) } m 2 rfl hr).2 (by decide)
  exact ⟨r, header, hf, hg, hp⟩

end Station
end InertialRelay
