import InertialRelay.Validation.Rule

/-!
# Configuration

The settings of a relay by their sections, with defaults, their form as data and the rules that read
them from data.
-/

namespace InertialRelay

/-- The topics on which records are published. -/
structure Topics where
  data : String := "imu/data"
  dataNed : String := "imu/data_ned"
  dataRaw : String := "imu/data_raw"
  mag : String := "imu/mag"
  atmPressure : String := "imu/atm_pressure"
  temperature : String := "imu/temperature"
  deriving Repr, DecidableEq

/-- The value of π in binary64. -/
def pi : Float := .ofBits 0x400921fb54442d18

/-- How records are labelled and how much their values scatter. -/
structure ImuConfig where
  frameId : String := "base_link"
  linearAccelerationStdev : Float := 0.0003
  angularVelocityStdev : Float := 0.02 * (pi / 180.0)
  orientationStdev : Float := 1.0
  magneticStdev : Float := 0.0
  topics : Topics := {}
  deriving Repr, DecidableEq

/-- Where messages come from. -/
structure LinkConfig where
  url : String := "udp:0.0.0.0:14550"
  sourceSystem : Int := 255
  sourceComponent : Int := 191
  connTimeout : Float := 10.0
  timeOffset : Option Float := none
  deriving Repr, DecidableEq

structure LoggingConfig where
  level : String := "INFO"
  toFile : Bool := true
  logDir : Option String := none
  deriving Repr, DecidableEq

structure BridgeConfig where
  imu : ImuConfig := {}
  link : LinkConfig := {}
  logging : LoggingConfig := {}
  deriving Repr, DecidableEq

/-! ## Settings as data -/

def Topics.toData (t : Topics) : Data :=
  .map [("data", .str t.data), ("data_ned", .str t.dataNed), ("data_raw", .str t.dataRaw),
    ("mag", .str t.mag), ("atm_pressure", .str t.atmPressure),
    ("temperature", .str t.temperature)]

def ImuConfig.toData (c : ImuConfig) : Data :=
  .map [("frame_id", .str c.frameId),
    ("linear_acceleration_stdev", .real c.linearAccelerationStdev),
    ("angular_velocity_stdev", .real c.angularVelocityStdev),
    ("orientation_stdev", .real c.orientationStdev),
    ("magnetic_stdev", .real c.magneticStdev),
    ("topics", c.topics.toData)]

def LinkConfig.toData (c : LinkConfig) : Data :=
  .map [("url", .str c.url), ("source_system", .int c.sourceSystem),
    ("source_component", .int c.sourceComponent), ("conn_timeout_s", .real c.connTimeout),
    ("time_offset_s", c.timeOffset.elim .null .real)]

def LoggingConfig.toData (c : LoggingConfig) : Data :=
  .map [("level", .str c.level), ("to_file", .bool c.toFile),
    ("log_dir", c.logDir.elim .null .str)]

def BridgeConfig.toData (c : BridgeConfig) : Data :=
  .map [("imu", c.imu.toData), ("mavlink", c.link.toData), ("logging", c.logging.toData)]

/-! ## Settings from data -/

namespace Rule

open Fields

def topics : Rule Topics :=
  model "TopicsConfig" fun es =>
    let d : Topics := {}
    Topics.mk <$> orElse es "data" text d.data <*> orElse es "data_ned" text d.dataNed <*>
      orElse es "data_raw" text d.dataRaw <*> orElse es "mag" text d.mag <*>
      orElse es "atm_pressure" text d.atmPressure <*>
      orElse es "temperature" text d.temperature

def imuConfig : Rule ImuConfig :=
  model "ImuConfig" fun es =>
    let d : ImuConfig := {}
    ImuConfig.mk <$> orElse es "frame_id" text d.frameId <*>
      orElse es "linear_acceleration_stdev" float d.linearAccelerationStdev <*>
      orElse es "angular_velocity_stdev" float d.angularVelocityStdev <*>
      orElse es "orientation_stdev" float d.orientationStdev <*>
      orElse es "magnetic_stdev" float d.magneticStdev <*>
      orElse es "topics" topics d.topics

def linkConfig : Rule LinkConfig :=
  model "MavlinkConfig" fun es =>
    let d : LinkConfig := {}
    LinkConfig.mk <$> orElse es "url" text d.url <*>
      orElse es "source_system" int d.sourceSystem <*>
      orElse es "source_component" int d.sourceComponent <*>
      orElse es "conn_timeout_s" float d.connTimeout <*>
      orElse es "time_offset_s" (optional float) d.timeOffset

def loggingConfig : Rule LoggingConfig :=
  model "LoggingConfig" fun es =>
    let d : LoggingConfig := {}
    LoggingConfig.mk <$> orElse es "level" text d.level <*>
      orElse es "to_file" bool d.toFile <*> orElse es "log_dir" (optional text) d.logDir

def bridgeConfig : Rule BridgeConfig :=
  model "BridgeConfig" fun es =>
    let d : BridgeConfig := {}
    BridgeConfig.mk <$> orElse es "imu" imuConfig d.imu <*>
      orElse es "mavlink" linkConfig d.link <*> orElse es "logging" loggingConfig d.logging

end Rule

end InertialRelay
