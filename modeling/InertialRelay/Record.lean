import InertialRelay.Covariance
import InertialRelay.Frames.Quaternion
import InertialRelay.Validation.Rule

/-!
# Published records

The records a relay publishes, their form as data, and the rules that read them from data.
-/

namespace InertialRelay

/-- When and in which frame something was measured. -/
structure Header where
  stamp : Float
  frameId : String
  deriving Repr, DecidableEq

/-- Orientation, angular velocity and linear acceleration. -/
structure ImuRecord where
  header : Header
  orientation : Quaternion Float := ⟨1, 0, 0, 0⟩
  orientationCovariance : Covariance := .unknown
  angularVelocity : Vec3 Float := .zero
  angularVelocityCovariance : Covariance := .unknown
  linearAcceleration : Vec3 Float := .zero
  linearAccelerationCovariance : Covariance := .unknown
  deriving Repr, DecidableEq

structure MagneticFieldRecord where
  header : Header
  magneticField : Vec3 Float
  magneticFieldCovariance : Covariance := .unknown
  deriving Repr, DecidableEq

structure FluidPressureRecord where
  header : Header
  fluidPressure : Float
  variance : Float := 0
  deriving Repr, DecidableEq

structure TemperatureRecord where
  header : Header
  temperature : Float
  variance : Float := 0
  deriving Repr, DecidableEq

inductive Record where
  | imu (r : ImuRecord)
  | magneticField (r : MagneticFieldRecord)
  | fluidPressure (r : FluidPressureRecord)
  | temperature (r : TemperatureRecord)
  deriving Repr, DecidableEq

/-! ## Records as data -/

def Vec3.toData (v : Vec3 Float) : Data :=
  .map [("x", .real v.x), ("y", .real v.y), ("z", .real v.z)]

/-- As data an orientation ends with its scalar part. -/
def Quaternion.toData (q : Quaternion Float) : Data :=
  .map [("x", .real q.x), ("y", .real q.y), ("z", .real q.z), ("w", .real q.w)]

def Covariance.toData (c : Covariance) : Data := .tuple (c.entries.map .real)

def Header.toData (h : Header) : Data :=
  .map [("stamp", .real h.stamp), ("frame_id", .str h.frameId)]

def ImuRecord.toData (r : ImuRecord) : Data :=
  .map [("header", r.header.toData),
    ("orientation", r.orientation.toData),
    ("orientation_covariance", r.orientationCovariance.toData),
    ("angular_velocity", r.angularVelocity.toData),
    ("angular_velocity_covariance", r.angularVelocityCovariance.toData),
    ("linear_acceleration", r.linearAcceleration.toData),
    ("linear_acceleration_covariance", r.linearAccelerationCovariance.toData)]

def MagneticFieldRecord.toData (r : MagneticFieldRecord) : Data :=
  .map [("header", r.header.toData),
    ("magnetic_field", r.magneticField.toData),
    ("magnetic_field_covariance", r.magneticFieldCovariance.toData)]

def FluidPressureRecord.toData (r : FluidPressureRecord) : Data :=
  .map [("header", r.header.toData), ("fluid_pressure", .real r.fluidPressure),
    ("variance", .real r.variance)]

def TemperatureRecord.toData (r : TemperatureRecord) : Data :=
  .map [("header", r.header.toData), ("temperature", .real r.temperature),
    ("variance", .real r.variance)]

namespace Record

def toData : Record → Data
  | imu r => r.toData
  | magneticField r => r.toData
  | fluidPressure r => r.toData
  | temperature r => r.toData

def header : Record → Header
  | imu r => r.header
  | magneticField r => r.header
  | fluidPressure r => r.header
  | temperature r => r.header

end Record

/-! ## Records from data -/

namespace Rule

open Fields

def covariance : Rule Covariance := fun d =>
  (fun as => ⟨as.1, as.2⟩) <$> tuple 9 float d

def vec3 : Rule (Vec3 Float) :=
  model "Vector3" fun es =>
    Vec3.mk <$> orElse es "x" float 0 <*> orElse es "y" float 0 <*> orElse es "z" float 0

def quaternion : Rule (Quaternion Float) :=
  model "Quaternion" fun es =>
    (fun x y z w => ⟨w, x, y, z⟩) <$> orElse es "x" float 0 <*> orElse es "y" float 0 <*>
      orElse es "z" float 0 <*> orElse es "w" float 1

def header : Rule Header :=
  model "Header" fun es =>
    Header.mk <$> required es "stamp" float <*> required es "frame_id" text

def imuRecord : Rule ImuRecord :=
  model "ImuRecord" fun es =>
    ImuRecord.mk <$> required es "header" header <*>
      orElse es "orientation" quaternion ⟨1, 0, 0, 0⟩ <*>
      orElse es "orientation_covariance" covariance .unknown <*>
      orElse es "angular_velocity" vec3 .zero <*>
      orElse es "angular_velocity_covariance" covariance .unknown <*>
      orElse es "linear_acceleration" vec3 .zero <*>
      orElse es "linear_acceleration_covariance" covariance .unknown

def magneticFieldRecord : Rule MagneticFieldRecord :=
  model "MagneticFieldRecord" fun es =>
    MagneticFieldRecord.mk <$> required es "header" header <*>
      required es "magnetic_field" vec3 <*>
      orElse es "magnetic_field_covariance" covariance .unknown

def fluidPressureRecord : Rule FluidPressureRecord :=
  model "FluidPressureRecord" fun es =>
    FluidPressureRecord.mk <$> required es "header" header <*>
      required es "fluid_pressure" float <*> orElse es "variance" float 0

def temperatureRecord : Rule TemperatureRecord :=
  model "TemperatureRecord" fun es =>
    TemperatureRecord.mk <$> required es "header" header <*>
      required es "temperature" float <*> orElse es "variance" float 0

end Rule

end InertialRelay
