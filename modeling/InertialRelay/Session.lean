import InertialRelay.Bridge
import InertialRelay.CommandLine
import InertialRelay.Config.Load
import InertialRelay.Log.Plan

/-!
# Sessions

One run of the program. A command line, the environment and the files prepare a session, which then
opens its transport, relays what comes, and closes again when its time is over or it is interrupted.
Whatever is not fine on the way ends the session where it stands.
-/

namespace InertialRelay

/-- How a session ends. -/
inductive Ending where
  | done
  /-- The program was only asked to describe itself. -/
  | help
  | usage (e : CommandLine.UsageError)
  | fault (f : Fault)
  deriving Repr, DecidableEq

/-- The status that the program reports, unless it ends in a fault. -/
def Ending.exitCode? : Ending → Option Nat
  | done | help => some 0
  | usage _ => some 2
  | fault _ => none

/-- Where the records of a session go. -/
inductive Destination where
  | console
  | file (path : FilePath)
  | log
  deriving Repr, DecidableEq

namespace Destination

/-- The destination that an output option names; a file is opened. -/
def ofOutput (output : Option String) (t : FileTree) : FileTree × Except Fault Destination :=
  match output with
  | none | some "" => (t, .ok log)
  | some "-" => (t, .ok console)
  | some name =>
    match t.openAppend name with
    | .ok (path, t) => (t, .ok (file path))
    | .error f => (t, .error f)

/-- The sink of a destination; its state is the text written so far. -/
def sink : Destination → Sink String
  | console | file _ => Sink.jsonLines
  | log => Sink.logging

/-- What text written to a destination shows on the console. -/
def consoleText (d : Destination) (text : String) : String :=
  match d with
  | console => text
  | _ => ""

/-- The files after text was written to a destination. -/
def write (d : Destination) (text : String) (t : FileTree) : FileTree :=
  match d with
  | file path => t.append path text
  | _ => t

end Destination

/-- What a session finds around it. -/
structure Surroundings where
  args : List String
  /-- The address and the log level that the environment asks for. -/
  url : Option String := none
  logLevel : Option String := none
  tree : FileTree := {}
  /-- Where the manual of causes is found. -/
  manual : Option String := none
  deriving Repr, DecidableEq

/-- A session that is ready to open its transport. -/
structure Session where
  config : BridgeConfig
  plan : LogPlan
  destination : Destination
  bridge : Bridge String
  /-- How long it lasts, in seconds. -/
  duration : Option Float

namespace Session

/-- A text that counts as given. -/
def given (text : Option String) : Option String := text.filter (· ≠ "")

/-- The configuration that a command asks for: the one in the named file, or the packaged one, with
the address and the log level of the command. -/
def configure (o : CommandLine.RunOptions) (t : FileTree) : Except Fault BridgeConfig := do
  let text ← match given o.config with
    | some name => t.read name
    | none => .ok BridgeConfig.packaged
  let c ← BridgeConfig.load text
  return { c with
    link := { c.link with url := (given o.url).getD c.link.url }
    logging := { c.logging with level := (given o.logLevel).getD c.logging.level } }

/-- How the configuration asks for the log. -/
def logRequest (c : BridgeConfig) : LogRequest where
  level := c.logging.level
  toFile := c.logging.toFile
  logDir := c.logging.logDir

/-- What preparing a session changes: the files, and the level of the log. -/
structure Ground where
  tree : FileTree
  /-- Before the log is set up, it shows warnings. -/
  level : Int := 30
  deriving Repr, DecidableEq

/-- Steps of a preparation. What they changed stays when a later one fails. -/
abbrev Preparing := ExceptT Ending (StateM Ground)

/-- A step that may fail and changes nothing. -/
def attempt {α : Type} (x : Except Fault α) : Preparing α :=
  ExceptT.mk (pure (x.mapError .fault))

/-- A step that changes the files, also where it fails. -/
def attemptOnFiles {α : Type} (act : FileTree → FileTree × Except Fault α) : Preparing α := do
  let (tree, x) := act (← get).tree
  modify fun g => { g with tree }
  attempt x

/-- Prepares the session that a command asks for. -/
def prepareRun (manual : Option String) (o : CommandLine.RunOptions) : Preparing Session := do
  let config ← attempt (configure o (← get).tree)
  let request := logRequest config
  let level ← attempt (LevelName.level request.level)
  modify fun g => { g with level }
  let plan ← attemptOnFiles (request.openFile level)
  let destination ← attemptOnFiles (Destination.ofOutput o.output)
  let bridge ← attempt (Bridge.ofConfig config "" manual)
  return { config, plan, destination, bridge, duration := o.duration }

/-- Prepares the session that its surroundings ask for. -/
def prepare (s : Surroundings) : Preparing Session :=
  match CommandLine.parse s.url s.logLevel s.args with
  | .error e => throw (.usage e)
  | .ok .help => throw .help
  | .ok (.run o) => prepareRun s.manual o

/-- The time between two looks at the clock. -/
def pause : Float := 0.1

/-- Whether a session that began at zero is over at a time. -/
def isOver (duration : Option Float) (now : Float) : Bool :=
  match duration with
  | some d => d ≤ now
  | none => false

/-- The number of pauses of a session that reads `now` on its clock and is interrupted in the last
of at most `limit` pauses. -/
def pauses (duration : Option Float) (now : Float) (limit : Nat) : Nat :=
  match limit with
  | 0 => 0
  | limit + 1 => if isOver duration now then 0 else pauses duration (now + pause) limit + 1

/-- What a session did. -/
structure Report where
  ending : Ending
  pauses : Nat := 0
  /-- The settings with which a transport was asked to open. -/
  opened : Option LinkSettings := none
  closed : Bool := false
  level : Int
  console : String := ""
  log : Log := []
  /-- What happened while reading. -/
  readLog : Log := []
  readFault : Option Fault := none
  tree : FileTree

namespace Report

/-- The report on a session that was not opened. -/
def ofEnding (e : Ending) (g : Ground) : Report := { ending := e, level := g.level, tree := g.tree }

end Report

/-- The line about a session that runs. -/
def announcement (c : BridgeConfig) : LogEntry :=
  ⟨.info, .session, "IMU bridge running on " ++ c.link.url ++ " (frame_id=" ++ c.imu.frameId ++
    ")"⟩

/-- Runs a session on a transport. The host clock reads `wall`; the session is interrupted in the
last of at most `limit` pauses. -/
def run (s : Session) (t : Transport) (wall : Nat → Num) (limit : Nat) (g : Ground) : Report :=
  let started := s.bridge.start s.destination.sink wall t (.real 0)
  match started.fault with
  | some f =>
    { ending := .fault f, opened := some s.bridge.receiver.settings, level := g.level
      log := s.plan.select started.log, tree := g.tree }
  | none =>
    let text := started.state.sink
    { ending := .done
      pauses := pauses s.duration 0 limit
      opened := some s.bridge.receiver.settings
      closed := true
      level := g.level
      console := s.destination.consoleText text
      log := s.plan.select (started.log ++ [announcement s.config] ++ started.receiver.stop.2)
      readLog := s.plan.select started.readLog
      readFault := started.readFault
      tree := s.destination.write text g.tree }

/-- Prepares a session and runs it. -/
def runIn (s : Surroundings) (t : Transport) (wall : Nat → Num) (limit : Nat) : Report :=
  match ((prepare s).run).run { tree := s.tree } with
  | (.error e, g) => Report.ofEnding e g
  | (.ok session, g) => session.run t wall limit g

end Session

end InertialRelay
