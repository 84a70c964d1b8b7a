import InertialRelay.Frames.Rotation
import InertialRelay.Message
import InertialRelay.Units

/-!
# Readings

What a message measured, in SI units and in the frames of the published records. A field that is not
used is never converted, so only the fields that are used can fail; the first of them to fail, in
the order written here, is the one reported.
-/

namespace InertialRelay

/-- An orientation from the base frame to east-north-up, and the same one from the aircraft frame to
north-east-down. -/
structure OrientationPair where
  enu : Quaternion Float
  ned : Quaternion Float
  deriving Repr, DecidableEq

/-- A vector in the base frame, and the same one in the aircraft frame. -/
structure VectorPair where
  enu : Vec3 Float
  ned : Vec3 Float
  deriving Repr, DecidableEq

def OrientationPair.ofAircraft (q : Quaternion Float) : OrientationPair :=
  ⟨Frames.orientationToEnuBase q, q⟩

namespace VectorPair

def ofAircraft (v : Vec3 Float) : VectorPair := ⟨Frames.vectorToBase v, v⟩

def zero : VectorPair := ⟨Vec3.zero, Vec3.zero⟩

end VectorPair

structure AttitudeReading where
  deviceTime : Float
  orientation : OrientationPair
  angularVelocity : VectorPair
  deriving Repr, DecidableEq

structure InertialReading where
  angularVelocity : VectorPair
  acceleration : VectorPair
  deriving Repr, DecidableEq

/-- Everything an inertial or pressure message yielded; a group that is absent is `none`. -/
structure SensorReading where
  deviceTime : Float
  inertial : Option InertialReading := none
  magneticField : Option (Vec3 Float) := none
  fluidPressure : Option Float := none
  temperature : Option Float := none
  /-- Set when the unit of the acceleration is not known. -/
  accelerationUntrusted : Bool := false
  deriving Repr, DecidableEq

inductive Reading where
  | attitude (r : AttitudeReading)
  | sensors (r : SensorReading)
  deriving Repr, DecidableEq

namespace HighresImu

/-- The groups of fields that `fieldsUpdated` can announce. -/
def accelGyroMask : Nat := 63

def magMask : Nat := 448

def absPressureMask : Nat := 512

def temperatureMask : Nat := 4096

/-- Whether one of the bits of `mask`, all below bit 16, is set in the two's complement of
`flags`. -/
def hasAny (flags : Int) (mask : Nat) : Bool := (flags % 65536).toNat &&& mask != 0

end HighresImu

namespace Reading

def toFloats (v : Vec3 Num) : Except Fault (Vec3 Float) := v.mapM Num.toFloat

/-- The reading of an attitude that is already a quaternion. -/
def ofQuaternion (time : Num) (rates : Vec3 Num) (q : Quaternion Float) :
    Except Fault AttitudeReading := do
  let rates ← toFloats rates
  let time ← time.times Units.msToS
  return ⟨time, .ofAircraft q, .ofAircraft rates⟩

def ofAttitude (m : Attitude) : Except Fault AttitudeReading := do
  let q ← Quaternion.ofAngles m.roll m.pitch m.yaw
  ofQuaternion m.timeBootMs m.rates q

def ofAttitudeQuaternion (m : AttitudeQuaternion) : Except Fault AttitudeReading := do
  let q ← m.orientation.mapM Num.toFloat
  ofQuaternion m.timeBootMs m.rates q

/-- A value that is computed only if it is announced. -/
def guarded {α : Type} (present : Bool) (value : Except Fault α) : Except Fault (Option α) :=
  if present then some <$> value else .ok none

/-- Converts the groups that are flagged, each on its own. -/
def ofHighresImu (m : HighresImu) : Except Fault SensorReading := do
  let time ← m.timeUsec.times Units.usToS
  let flags ← m.fieldsUpdated.toInt
  let inertial ← guarded (HighresImu.hasAny flags HighresImu.accelGyroMask) do
    let gyro ← toFloats m.gyro
    let acc ← toFloats m.acc
    return ⟨.ofAircraft gyro, .ofAircraft acc⟩
  let magneticField ← guarded (HighresImu.hasAny flags HighresImu.magMask) do
    let mag ← toFloats m.mag
    return Frames.vectorToBase (mag.scale Units.gaussToTesla)
  let fluidPressure ← guarded (HighresImu.hasAny flags HighresImu.absPressureMask) do
    m.absPressure.times Units.millibarToPascal
  let temperature ← guarded (HighresImu.hasAny flags HighresImu.temperatureMask) do
    m.temperature.toFloat
  return { deviceTime := time, inertial, magneticField, fluidPressure, temperature }

def ofScaledImu (m : ImuSample) : Except Fault SensorReading := do
  let gyro ← toFloats m.gyro
  let acc ← toFloats m.acc
  let mag ← toFloats m.mag
  let time ← m.time.times Units.msToS
  return {
    deviceTime := time
    inertial := some ⟨.ofAircraft (gyro.scale Units.millirsToRadsec),
      .ofAircraft (acc.scale Units.milligToMs2)⟩
    magneticField := some (Frames.vectorToBase (mag.scale Units.millitToTesla)) }

/-- Firmware of the ArduPilot family sends scaled values in raw samples. On any other firmware the
acceleration is left as it is, and is not trusted. -/
def ofRawImu (m : ImuSample) (ardupilot : Bool) : Except Fault SensorReading := do
  let gyro ← toFloats m.gyro
  let acc ← toFloats m.acc
  let mag ← toFloats m.mag
  let time ← m.time.times Units.usToS
  return {
    deviceTime := time
    inertial := some ⟨.ofAircraft (gyro.scale Units.millirsToRadsec),
      .ofAircraft (if ardupilot then acc.scale Units.milligToMs2 else acc)⟩
    magneticField := some (Frames.vectorToBase (mag.scale Units.millitToTesla))
    accelerationUntrusted := !ardupilot }

def ofScaledPressure (m : ScaledPressure) : Except Fault SensorReading := do
  let time ← m.timeBootMs.times Units.msToS
  let pressure ← m.pressAbs.times Units.hectopascalToPascal
  let temperature ← m.temperature.dividedBy Units.centi
  return { deviceTime := time, fluidPressure := some pressure, temperature := some temperature }

/-- The reading of a message; the firmware matters to raw samples only. -/
def ofMessage (m : Message) (ardupilot : Bool) : Except Fault Reading :=
  match m with
  | .attitude m => attitude <$> ofAttitude m
  | .attitudeQuaternion m => attitude <$> ofAttitudeQuaternion m
  | .highresImu m => sensors <$> ofHighresImu m
  | .rawImu m => sensors <$> ofRawImu m ardupilot
  | .scaledImu m => sensors <$> ofScaledImu m
  | .scaledPressure m => sensors <$> ofScaledPressure m

end Reading

end InertialRelay
