/-!
# Log entries

What the relay reports about its own work: a severity, the component that speaks, and a line of
text. Entries are values; the outer layer decides which of them are shown.
-/

namespace InertialRelay

inductive Severity where
  | debug
  | info
  | warning
  | error
  | critical
  deriving Repr, DecidableEq

namespace Severity

def name : Severity → String
  | debug => "DEBUG"
  | info => "INFO"
  | warning => "WARNING"
  | error => "ERROR"
  | critical => "CRITICAL"

/-- The threshold number of a severity; a logger at level `n` is silent below `n`. -/
def level : Severity → Int
  | debug => 10
  | info => 20
  | warning => 30
  | error => 40
  | critical => 50

end Severity

/-- The parts of the relay that write to the log. -/
inductive Component where
  | arbiter
  | assembler
  | node
  | sink
  | decoder
  | link
  | session
  deriving Repr, DecidableEq

/-- The logger name of a component. -/
def Component.name : Component → String
  | arbiter => "imu_bridge.core.arbiter"
  | assembler => "imu_bridge.core.assembler"
  | node => "imu_bridge.core.imu_plugin"
  | sink => "imu_bridge.core.sinks"
  | decoder => "imu_bridge.mavlink.decode"
  | link => "imu_bridge.mavlink.source"
  | session => "imu_bridge.main"

structure LogEntry where
  severity : Severity
  component : Component
  text : String
  deriving Repr, DecidableEq

/-- Entries in the order in which they were written. -/
abbrev Log := List LogEntry

end InertialRelay
