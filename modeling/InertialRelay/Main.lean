import InertialRelay.Feed
import InertialRelay.Session
import Std.Time.DateTime.Timestamp

/-!
# The program

`imu-bridge run` relays the messages of a feed on standard input, one a line, until the input ends
or its time is over. Records go to standard output or to a file, log lines to standard error and to
the log file.
-/

namespace InertialRelay.Program

/-- The reading of the host clock, in seconds. -/
def wallClock : IO Float := do
  let now ← Std.Time.Timestamp.now
  return Float.ofInt now.toNanosecondsSinceUnixEpoch.val / 1000000000.0

/-- The reading of a clock that never goes back, in seconds. -/
def steadyClock : IO Float := do
  return (← IO.monoNanosNow).toFloat / 1000000000.0

/-- Whether a path is a directory. -/
def isDirectory (path : String) : IO Bool := do
  try
    (← IO.FS.realPath path).isDir
  catch _ => return false

/-- The text of a file, if it can be read. -/
def textOf? (path : String) : IO (Option String) := do
  try
    return some (← IO.FS.readFile path)
  catch _ => return none

/-- The part of the file system that a path goes through. -/
def look (tree : FileTree) (name : String) : IO FileTree := do
  let mut tree := tree
  for p in FilePath.places name do
    if ← isDirectory p.toText then
      tree := { tree with directories := tree.directories ++ [p] }
    else
      match ← textOf? p.toText with
      | some text => tree := { tree with files := tree.files ++ [(p, text)] }
      | none => pure ()
  return tree

/-- The surroundings of this run, with the files that its arguments name. -/
def surroundings (args : List String) : IO Surroundings := do
  let url ← IO.getEnv "MAVLINK_URL"
  let logLevel ← IO.getEnv "LOG_LEVEL"
  let names := match CommandLine.parse url logLevel args with
    | .ok (.run o) => [o.config, o.output].filterMap Session.given
    | _ => []
  return { args, url, logLevel, tree := ← names.foldlM look {} }

/-- Appends text to a file. -/
def append (path : FilePath) (text : String) : IO Unit := do
  let handle ← IO.FS.Handle.mk path.toText .append
  handle.putStr text

/-- Shows the entries that a plan selects. -/
def showLog (plan : LogPlan) (log : Log) : IO Unit := do
  let lines := (plan.select log).map fun e =>
    LogPlan.line e.component.name e.severity.level e.text
  let text := String.join (lines.map (· ++ "\n"))
  (← IO.getStderr).putStr text
  match plan.file with
  | some path => append path text
  | none => return ()

/-- Writes records to their destination. -/
def deliver (destination : Destination) (text : String) : IO Unit := do
  match destination with
  | .file path => append path text
  | _ =>
    let out ← IO.getStdout
    out.putStr (destination.consoleText text)
    out.flush

/-- One turn of reading, up to the records and the log lines that it brings. -/
def turn (s : Session) (received : Received) (now : Num) (r : Linked Num (Station String)) :
    IO (Linked Num (Station String)) := do
  let wall ← wallClock
  let audience := s.bridge.audience s.destination.sink (fun _ => .real wall)
  let cycle : Cycle Num := { received, atMessage := now, atCheck := now }
  let r := ReadLoop.turn audience cycle r.link { r.state with sink := "" }
  showLog s.plan r.log
  deliver s.destination r.state.sink
  return r

/-- Reads until the feed ends, the session is over, or a message brings a fault. -/
partial def relay (s : Session) (feed : IO.FS.Stream) (started : Float)
    (r : Linked Num (Station String)) : IO Unit := do
  let now := (← steadyClock) - started
  if Session.isOver s.duration now then return ()
  let line ← feed.getLine
  if line.isEmpty then return ()
  let r ← turn s (Received.ofLine line) (.real now) r
  if r.fault.isNone then relay s feed started r

/-- Runs a session on standard input. -/
def runSession (s : Session) : IO Unit := do
  let started := s.bridge.start s.destination.sink (fun _ => .int 0) {} (.real 0)
  showLog s.plan (started.log ++ [Session.announcement s.config])
  relay s (← IO.getStdin) (← steadyClock) ⟨started.receiver.link, started.state, [], none⟩
  showLog s.plan started.receiver.stop.2

/-- What the program says about itself. -/
def usage : String :=
  "usage: imu-bridge run [--url URL] [--config CONFIG] [--log-level LOG_LEVEL] " ++
    "[--output OUTPUT] [--duration DURATION]"

/-- Tells how a session ended. -/
def tell (e : Ending) : IO Unit :=
  match e with
  | .done => return ()
  | .help => IO.println usage
  | .usage e => IO.eprintln e.message
  | .fault f => IO.eprintln f.message

end InertialRelay.Program

open InertialRelay Program in
/-- Runs the program and gives its status. -/
def main (args : List String) : IO UInt32 := do
  let s ← surroundings args
  match ((Session.prepare s).run).run { tree := s.tree } with
  | (.ok session, ground) =>
    for p in FileTree.createdDirectories s.tree ground.tree do
      IO.FS.createDirAll p.toText
    runSession session
    return 0
  | (.error e, _) =>
    tell e
    return UInt32.ofNat (e.exitCode?.getD 1)
