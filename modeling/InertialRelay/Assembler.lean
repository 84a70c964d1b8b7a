import InertialRelay.Config.Model
import InertialRelay.Reading
import InertialRelay.Sink
import InertialRelay.Stamp
import InertialRelay.Timescale

/-!
# From readings to records

Attitude messages carry no acceleration, so attitude records repeat the acceleration of the last
inertial message. That memory outlives reconnections; an acceleration whose unit is not known clears
it.
-/

namespace InertialRelay

/-- What a call sees of the world around it. -/
structure Ambient where
  /-- The known offset of the device clock. -/
  offset : Option Num := none
  /-- The host clock, by the number of readings taken before during the call. -/
  wall : Nat → Num := fun _ => .real 0
  /-- The clock of the warnings. -/
  mono : Num := .real 0
  /-- Whether the firmware belongs to the ArduPilot family. -/
  ardupilot : Bool := false

/-- The two views of one attitude. -/
structure AttitudePair where
  enu : ImuRecord
  ned : ImuRecord
  deriving Repr, DecidableEq

/-- How the records of a relay are labelled, with covariances worked out. -/
structure Labels where
  frameId : String
  topics : Topics
  acceleration : Covariance
  angularVelocity : Covariance
  orientation : Covariance
  magnetic : Covariance
  deriving Repr, DecidableEq

def Labels.ofConfig (c : ImuConfig) : Except Fault Labels := do
  let acceleration ← Covariance.ofStdev (.real c.linearAccelerationStdev)
  let angularVelocity ← Covariance.ofStdev (.real c.angularVelocityStdev)
  let orientation ← Covariance.ofStdev (.real c.orientationStdev)
  let magnetic ← Covariance.ofStdev (.real c.magneticStdev)
  return ⟨c.frameId, c.topics, acceleration, angularVelocity, orientation, magnetic⟩

/-- The labels and the memory of a relay. -/
structure Assembler where
  labels : Labels
  /-- The acceleration that attitude records repeat. -/
  acceleration : VectorPair := .zero
  lastAttitude : Option AttitudePair := none
  /-- Limits the warning about accelerations in unknown units. -/
  warning : Throttle Num := { period := .real 60 }
  deriving Repr, DecidableEq

/-- The outcome of turning a message into records. -/
structure Assembly where
  assembler : Assembler
  log : Log
  outputs : Except Fault (List Output)

namespace Assembler

/-- The frame of the attitude as the autopilot sees it. -/
def aircraftFrame : String := "aircraft"

/-- The record of one view of an attitude. -/
def attitudeRecord (a : Assembler) (header : Header) (orientation : Quaternion Float)
    (covariance : Covariance) (rates acceleration : Vec3 Float) : ImuRecord where
  header := header
  orientation := orientation
  orientationCovariance := covariance
  angularVelocity := rates
  angularVelocityCovariance := a.labels.angularVelocity
  linearAcceleration := acceleration
  linearAccelerationCovariance := a.labels.acceleration

/-- Both views of an attitude. Only the one in the base frame counts as an estimate; the other has
no covariance. Each view takes its own reading of the host clock. -/
def attitudePair (a : Assembler) (env : Ambient) (r : AttitudeReading) :
    Except Fault AttitudePair := do
  let time := Num.real r.deviceTime
  let header ← Header.atDeviceTime env.offset (env.wall 0) a.labels.frameId time
  let enu := a.attitudeRecord header r.orientation.enu a.labels.orientation
    r.angularVelocity.enu a.acceleration.enu
  let header ← Header.atDeviceTime env.offset (env.wall 1) aircraftFrame time
  let ned := a.attitudeRecord header r.orientation.ned .unknown
    r.angularVelocity.ned a.acceleration.ned
  return ⟨enu, ned⟩

def attitude (a : Assembler) (env : Ambient) (r : AttitudeReading) : Assembly :=
  match a.attitudePair env r with
  | .error f => ⟨a, [], .error f⟩
  | .ok pair =>
    ⟨{ a with lastAttitude := some pair }, [],
      .ok [⟨a.labels.topics.data, .imu pair.enu⟩, ⟨a.labels.topics.dataNed, .imu pair.ned⟩]⟩

/-- The record of an inertial group. -/
def rawRecord (a : Assembler) (header : Header) (r : InertialReading) : ImuRecord where
  header := header
  angularVelocity := r.angularVelocity.enu
  angularVelocityCovariance := a.labels.angularVelocity
  linearAcceleration := r.acceleration.enu
  linearAccelerationCovariance := a.labels.acceleration

/-- One record per group that is present. -/
def sensorOutputs (a : Assembler) (header : Header) (r : SensorReading) : List Output :=
  (r.inertial.map fun i =>
      (⟨a.labels.topics.dataRaw, .imu (a.rawRecord header i)⟩ : Output)).toList ++
    (r.magneticField.map fun b =>
      (⟨a.labels.topics.mag, .magneticField ⟨header, b, a.labels.magnetic⟩⟩ : Output)).toList ++
    (r.fluidPressure.map fun p =>
      (⟨a.labels.topics.atmPressure, .fluidPressure { header, fluidPressure := p }⟩ :
        Output)).toList ++
    (r.temperature.map fun t =>
      (⟨a.labels.topics.temperature, .temperature { header, temperature := t }⟩ :
        Output)).toList

/-- Remembers the acceleration of an inertial group. -/
def remember (a : Assembler) (r : Option InertialReading) : Assembler :=
  match r with
  | some i => { a with acceleration := i.acceleration }
  | none => a

/-- The warning about an acceleration in an unknown unit. -/
def untrustedWarning (a : Assembler) : Log :=
  [⟨.warning, .assembler, "IMU: linear acceleration on RAW_IMU known on APM only."⟩,
    ⟨.warning, .assembler,
      "IMU: " ++ a.labels.topics.dataRaw ++ " stores unscaled raw acceleration report."⟩]

/-- Forgets an acceleration in an unknown unit, with a warning when one is due. -/
def distrust (a : Assembler) (env : Ambient) : Except Fault (Assembler × Log) := do
  let (due, warning) ← a.warning.ready env.mono
  return ({ a with warning, acceleration := .zero }, if due then a.untrustedWarning else [])

def sensors (a : Assembler) (env : Ambient) (r : SensorReading) : Assembly :=
  match Header.atDeviceTime env.offset (env.wall 0) a.labels.frameId (.real r.deviceTime) with
  | .error f => ⟨a, [], .error f⟩
  | .ok header =>
    let a' := a.remember r.inertial
    if r.accelerationUntrusted then
      match a'.distrust env with
      | .error f => ⟨a', [], .error f⟩
      | .ok (a'', log) => ⟨a'', log, .ok (a.sensorOutputs header r)⟩
    else ⟨a', [], .ok (a.sensorOutputs header r)⟩

def assemble (a : Assembler) (env : Ambient) : Reading → Assembly
  | .attitude r => a.attitude env r
  | .sensors r => a.sensors env r

end Assembler

end InertialRelay
