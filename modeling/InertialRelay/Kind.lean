/-!
# Message kinds

The six telemetry messages a relay consumes, by their names on the wire, and the physical quantity
each of them reports.
-/

namespace InertialRelay

/-- The output stream a message contributes to. -/
inductive Quantity where
  | attitude
  | inertialRaw
  | magnetic
  | pressure
  | temperature
  deriving Repr, DecidableEq

namespace Quantity

def name : Quantity → String
  | attitude => "ATTITUDE"
  | inertialRaw => "INERTIAL_RAW"
  | magnetic => "MAGNETIC"
  | pressure => "PRESSURE"
  | temperature => "TEMPERATURE"

def code : Quantity → Nat
  | attitude => 0
  | inertialRaw => 1
  | magnetic => 2
  | pressure => 3
  | temperature => 4

def all : List Quantity := [attitude, inertialRaw, magnetic, pressure, temperature]

end Quantity

/-- The kinds of message a relay understands. -/
inductive Kind where
  | attitude
  | attitudeQuaternion
  | highresImu
  | rawImu
  | scaledImu
  | scaledPressure
  deriving Repr, DecidableEq

namespace Kind

/-- The type name of the kind on the wire. -/
def name : Kind → String
  | attitude => "ATTITUDE"
  | attitudeQuaternion => "ATTITUDE_QUATERNION"
  | highresImu => "HIGHRES_IMU"
  | rawImu => "RAW_IMU"
  | scaledImu => "SCALED_IMU"
  | scaledPressure => "SCALED_PRESSURE"

def all : List Kind :=
  [attitude, attitudeQuaternion, highresImu, rawImu, scaledImu, scaledPressure]

/-- The kind with a given wire name. -/
def ofName? (s : String) : Option Kind :=
  all.find? (·.name == s)

def quantity : Kind → Quantity
  | attitude | attitudeQuaternion => .attitude
  | highresImu | rawImu | scaledImu => .inertialRaw
  | scaledPressure => .pressure

/-- The fields of a kind in the order of their declaration. -/
def fieldNames : Kind → List String
  | attitude =>
    ["time_boot_ms", "roll", "pitch", "yaw", "rollspeed", "pitchspeed", "yawspeed"]
  | attitudeQuaternion =>
    ["time_boot_ms", "q1", "q2", "q3", "q4", "rollspeed", "pitchspeed", "yawspeed"]
  | highresImu =>
    ["time_usec", "xacc", "yacc", "zacc", "xgyro", "ygyro", "zgyro", "xmag", "ymag", "zmag",
      "abs_pressure", "diff_pressure", "pressure_alt", "temperature", "fields_updated"]
  | rawImu =>
    ["time_usec", "xacc", "yacc", "zacc", "xgyro", "ygyro", "zgyro", "xmag", "ymag", "zmag"]
  | scaledImu =>
    ["time_boot_ms", "xacc", "yacc", "zacc", "xgyro", "ygyro", "zgyro", "xmag", "ymag", "zmag"]
  | scaledPressure =>
    ["time_boot_ms", "press_abs", "press_diff", "temperature"]

theorem ofName?_name (k : Kind) : ofName? k.name = some k := by
  cases k <;> decide

end Kind

end InertialRelay
