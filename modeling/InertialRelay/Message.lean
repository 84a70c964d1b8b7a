import InertialRelay.Frames.Quaternion
import InertialRelay.Num

/-!
# Typed messages

The six messages with their fields, the list of named fields each of them has on the wire, and how
one is put together from named fields.
-/

namespace InertialRelay

/-- Euler angles and body rates of the aircraft relative to north-east-down. -/
structure Attitude where
  timeBootMs : Num
  roll : Num
  pitch : Num
  yaw : Num
  rates : Vec3 Num
  deriving Repr, DecidableEq

/-- The same attitude as a quaternion. -/
structure AttitudeQuaternion where
  timeBootMs : Num
  orientation : Quaternion Num
  rates : Vec3 Num
  deriving Repr, DecidableEq

/-- High resolution sensor data in SI units. The bits of `fieldsUpdated` tell which groups are
present: 0 to 5 acceleration and rates, 6 to 8 magnetic field, 9 pressure, 12 temperature. -/
structure HighresImu where
  timeUsec : Num
  acc : Vec3 Num
  gyro : Vec3 Num
  mag : Vec3 Num
  absPressure : Num
  diffPressure : Num
  pressureAlt : Num
  temperature : Num
  fieldsUpdated : Num
  deriving Repr, DecidableEq

/-- Sensor data in the units of the sensors or in thousandths. -/
structure ImuSample where
  time : Num
  acc : Vec3 Num
  gyro : Vec3 Num
  mag : Vec3 Num
  deriving Repr, DecidableEq

/-- Pressure in hectopascal and temperature in hundredths of a degree. -/
structure ScaledPressure where
  timeBootMs : Num
  pressAbs : Num
  pressDiff : Num
  temperature : Num
  deriving Repr, DecidableEq

inductive Message where
  | attitude (m : Attitude)
  | attitudeQuaternion (m : AttitudeQuaternion)
  | highresImu (m : HighresImu)
  | rawImu (m : ImuSample)
  | scaledImu (m : ImuSample)
  | scaledPressure (m : ScaledPressure)
  deriving Repr, DecidableEq

namespace ImuSample

/-- The fields of a sample whose time has the given name. -/
def fields (timeName : String) (m : ImuSample) : List (String × Num) :=
  [(timeName, m.time), ("xacc", m.acc.x), ("yacc", m.acc.y), ("zacc", m.acc.z),
    ("xgyro", m.gyro.x), ("ygyro", m.gyro.y), ("zgyro", m.gyro.z),
    ("xmag", m.mag.x), ("ymag", m.mag.y), ("zmag", m.mag.z)]

end ImuSample

namespace Message

def kind : Message → Kind
  | attitude _ => .attitude
  | attitudeQuaternion _ => .attitudeQuaternion
  | highresImu _ => .highresImu
  | rawImu _ => .rawImu
  | scaledImu _ => .scaledImu
  | scaledPressure _ => .scaledPressure

/-- The named fields of a message in the order of their declaration. -/
def fields : Message → List (String × Num)
  | attitude m =>
    [("time_boot_ms", m.timeBootMs), ("roll", m.roll), ("pitch", m.pitch), ("yaw", m.yaw),
      ("rollspeed", m.rates.x), ("pitchspeed", m.rates.y), ("yawspeed", m.rates.z)]
  | attitudeQuaternion m =>
    [("time_boot_ms", m.timeBootMs), ("q1", m.orientation.w), ("q2", m.orientation.x),
      ("q3", m.orientation.y), ("q4", m.orientation.z),
      ("rollspeed", m.rates.x), ("pitchspeed", m.rates.y), ("yawspeed", m.rates.z)]
  | highresImu m =>
    [("time_usec", m.timeUsec), ("xacc", m.acc.x), ("yacc", m.acc.y), ("zacc", m.acc.z),
      ("xgyro", m.gyro.x), ("ygyro", m.gyro.y), ("zgyro", m.gyro.z),
      ("xmag", m.mag.x), ("ymag", m.mag.y), ("zmag", m.mag.z),
      ("abs_pressure", m.absPressure), ("diff_pressure", m.diffPressure),
      ("pressure_alt", m.pressureAlt), ("temperature", m.temperature),
      ("fields_updated", m.fieldsUpdated)]
  | rawImu m => m.fields "time_usec"
  | scaledImu m => m.fields "time_boot_ms"
  | scaledPressure m =>
    [("time_boot_ms", m.timeBootMs), ("press_abs", m.pressAbs), ("press_diff", m.pressDiff),
      ("temperature", m.temperature)]

/-- The value of a field, or the name of a field that is missing. -/
abbrev Lookup := String → Except String Num

/-- Looks fields up in a list of named values. -/
def lookupIn (fields : List (String × Num)) : Lookup := fun name =>
  match fields.lookup name with
  | some v => .ok v
  | none => .error name

/-- Three fields that end in the name of an axis group. -/
def axes (get : Lookup) (x y z : String) : Except String (Vec3 Num) := do
  return ⟨← get x, ← get y, ← get z⟩

def sample (get : Lookup) (timeName : String) : Except String ImuSample := do
  return ⟨← get timeName, ← axes get "xacc" "yacc" "zacc", ← axes get "xgyro" "ygyro" "zgyro",
    ← axes get "xmag" "ymag" "zmag"⟩

def rates (get : Lookup) : Except String (Vec3 Num) :=
  axes get "rollspeed" "pitchspeed" "yawspeed"

/-- The message of a kind with the given fields; otherwise the first field in the order of
declaration that is missing. -/
def ofFields? (k : Kind) (get : Lookup) : Except String Message :=
  match k with
  | .attitude => do
    return attitude ⟨← get "time_boot_ms", ← get "roll", ← get "pitch", ← get "yaw", ← rates get⟩
  | .attitudeQuaternion => do
    return attitudeQuaternion ⟨← get "time_boot_ms",
      ⟨← get "q1", ← get "q2", ← get "q3", ← get "q4"⟩, ← rates get⟩
  | .highresImu => do
    return highresImu ⟨← get "time_usec", ← axes get "xacc" "yacc" "zacc",
      ← axes get "xgyro" "ygyro" "zgyro", ← axes get "xmag" "ymag" "zmag",
      ← get "abs_pressure", ← get "diff_pressure", ← get "pressure_alt", ← get "temperature",
      ← get "fields_updated"⟩
  | .rawImu => return rawImu (← sample get "time_usec")
  | .scaledImu => return scaledImu (← sample get "time_boot_ms")
  | .scaledPressure => do
    return scaledPressure ⟨← get "time_boot_ms", ← get "press_abs", ← get "press_diff",
      ← get "temperature"⟩

theorem fields_names (m : Message) : m.fields.map (·.1) = m.kind.fieldNames := by
  cases m <;> rfl

end Message

end InertialRelay
