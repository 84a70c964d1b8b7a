import InertialRelay.Config.Model
import InertialRelay.Fault
import InertialRelay.Yaml.Value

/-!
# Loading a configuration

A configuration is a document of which every section and every field may be left out. The packaged
document names them all.
-/

namespace InertialRelay.BridgeConfig

/-- The document that is used where no other is named. -/
def packaged : String :=
"imu:
  frame_id: base_link
  linear_acceleration_stdev: 0.0003
  angular_velocity_stdev: 0.0003490659   # 0.02 deg/s
  orientation_stdev: 1.0
  magnetic_stdev: 0.0
  topics:
    data: imu/data
    data_ned: imu/data_ned
    data_raw: imu/data_raw
    mag: imu/mag
    atm_pressure: imu/atm_pressure
    temperature: imu/temperature

mavlink:
  url: \"udp:0.0.0.0:14550\"
  source_system: 255
  source_component: 191
  conn_timeout_s: 10.0
  time_offset_s: null

logging:
  level: INFO
  to_file: true
  log_dir: null
"

/-- The settings that data holds; a document with nothing in it leaves everything out. -/
def ofData (d : Data) : Except Fault BridgeConfig :=
  match Rule.bridgeConfig.validate "BridgeConfig" (if d.isVoid then .map [] else d) with
  | .ok c => .ok c
  | .error e => .error (.invalid e)

/-- How deep settings are nested: sections, topics and their names. -/
def depth : Nat := 3

/-- The settings that a document holds. -/
def load (text : String) : Except Fault BridgeConfig := do
  ofData (← Yaml.read depth text)

end InertialRelay.BridgeConfig
