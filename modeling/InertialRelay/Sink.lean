import InertialRelay.Reaction
import InertialRelay.Record
import InertialRelay.Text.Json

/-!
# Sinks

Where records go: into memory, into a stream of JSON lines, or into the log. A sink may fail at any
record.
-/

namespace InertialRelay

/-- A record and the topic it is published on. -/
structure Published (α : Type) where
  topic : String
  record : α
  deriving Repr, DecidableEq

abbrev Output := Published Record

/-- Something that takes records and changes a state with each. -/
structure Sink (σ : Type) where
  publish : Output → σ → Reaction σ

namespace Sink

variable {σ : Type}

/-- Offers records in order until one of them fails. -/
def publishAll (sink : Sink σ) (outputs : List Output) (s : σ) : Reaction σ :=
  Reaction.untilFault sink.publish outputs s

/-- The line of a JSON stream for one record. -/
def line (topic : String) (record : Data) : String :=
  Text.Json.write (.map [("topic", .str topic), ("record", record)]) ++ "\n"

/-- The line in the log for one record. -/
def entry (topic : String) (record : Data) : LogEntry :=
  ⟨.debug, .sink, topic ++ ": " ++ Text.Shown.value record⟩

/-- Keeps every record, in the order of publication. -/
def recording : Sink (List Output) where
  publish o s := ⟨s ++ [o], [], none⟩

/-- Appends one line per record to a stream. -/
def jsonLines : Sink String where
  publish o s := ⟨s ++ line o.topic o.record.toData, [], none⟩

/-- Writes every record to the log, whatever state it runs on. -/
def logging : Sink σ where
  publish o s := ⟨s, [entry o.topic o.record.toData], none⟩

end Sink

/-! ## Questions to a recording -/

namespace Recording

variable {α : Type}

def topics (published : List (Published α)) : List String := published.map (·.topic)

/-- The latest record on a topic. -/
def last? (published : List (Published α)) (topic : String) : Option α :=
  (published.reverse.find? (·.topic == topic)).map (·.record)

end Recording

end InertialRelay
