import InertialRelay.FileTree
import InertialRelay.Log.Entry
import InertialRelay.Text.Quoted

/-!
# Where log lines go

A log level is given by name, in any case; a name that means nothing stands for INFO. Lines go to
the console and, unless it is switched off, to a file. When everything is shown, the loggers of the
transport library are held at INFO.
-/

namespace InertialRelay

namespace LevelName

/-- The upper-case letters of a character, as far as they are ASCII. -/
def upperChar (c : Char) : List Char :=
  match c with
  | 'ß' => ['S', 'S']
  | 'ı' => ['I']
  | 'ſ' => ['S']
  | 'ﬀ' => ['F', 'F']
  | 'ﬁ' => ['F', 'I']
  | 'ﬂ' => ['F', 'L']
  | 'ﬃ' => ['F', 'F', 'I']
  | 'ﬄ' => ['F', 'F', 'L']
  | 'ﬅ' => ['S', 'T']
  | 'ﬆ' => ['S', 'T']
  | c => [c.toUpper]

def upper (s : String) : String := String.ofList (s.toList.flatMap upperChar)

/-- The names of levels. -/
def table : List (String × Int) :=
  [("NOTSET", 0), ("DEBUG", 10), ("INFO", 20), ("WARN", 30), ("WARNING", 30), ("ERROR", 40),
    ("CRITICAL", 50), ("FATAL", 50)]

/-- The layouts of log lines, by the sign that marks a placeholder. -/
def layouts : String :=
  "\x7b'%': (<class 'logging.PercentStyle'>, '%(levelname)s:%(name)s:%(message)s'), " ++
  "'\x7b': (<class 'logging.StrFormatStyle'>, " ++
  "'\x7blevelname\x7d:\x7bname\x7d:\x7bmessage\x7d'), " ++
  "'$': (<class 'logging.StringTemplateStyle'>, " ++
  "'$\x7blevelname\x7d:$\x7bname\x7d:$\x7bmessage\x7d')\x7d"

/-- The level that a name stands for. Two names belong to the layout of log lines and are no
levels. -/
def level (name : String) : Except Fault Int :=
  let name := upper name
  match table.lookup name with
  | some n => .ok n
  | none =>
    if name = "BASIC_FORMAT" then
      .error (.unknownLevel (Text.quoted "%(levelname)s:%(name)s:%(message)s"))
    else if name = "_STYLES" then .error (.noLevel layouts)
    else .ok 20

/-- The name of a level in a log line. -/
def ofLevel (n : Int) : String :=
  match [((0 : Int), "NOTSET"), (10, "DEBUG"), (20, "INFO"), (30, "WARNING"), (40, "ERROR"),
      (50, "CRITICAL")].lookup n with
  | some name => name
  | none => "Level " ++ toString n

end LevelName

/-- How the log is asked for. -/
structure LogRequest where
  level : String := "INFO"
  toFile : Bool := true
  logDir : Option String := none
  filename : String := "imu_bridge.log"
  deriving Repr, DecidableEq

/-- How log lines are shown. -/
structure LogPlan where
  level : Int
  file : Option FilePath
  deriving Repr, DecidableEq

namespace LogRequest

/-- The directory of the log file. -/
def directory (r : LogRequest) : String :=
  match r.logDir with
  | some dir => if dir.isEmpty then "logs" else dir
  | none => "logs"

/-- The place of the log file. Two dots in its path take back the name before them, whether that
is a directory or not. -/
def file (r : LogRequest) : FilePath := FilePath.ofText (FilePath.join r.directory r.filename)

/-- Makes the directory and the file of a request whose level is known. -/
def openFile (r : LogRequest) (level : Int) (t : FileTree) : FileTree × Except Fault LogPlan :=
  if r.toFile then
    match t.makeDirectories r.directory with
    | (t, some f) => (t, .error f)
    | (t, none) =>
      match t.openAppend r.file.toText with
      | .ok (p, t) => (t, .ok ⟨level, some p⟩)
      | .error f => (t, .error f)
  else (t, .ok ⟨level, none⟩)

/-- Sets the log up. -/
def plan (r : LogRequest) (t : FileTree) : FileTree × Except Fault LogPlan :=
  match LevelName.level r.level with
  | .ok level => r.openFile level t
  | .error f => (t, .error f)

end LogRequest

namespace LogPlan

/-- Whether the loggers of the transport library have a level of their own. -/
def holdsTransport (p : LogPlan) : Bool := p.level ≤ 10

/-- The level of those loggers, or zero where they have none. -/
def transportLevel (p : LogPlan) : Int := if p.holdsTransport then 20 else 0

/-- The handlers of log lines, with their levels. -/
def handlers (p : LogPlan) : List (String × Int) :=
  ("StreamHandler", p.level) ::
    (p.file.map fun _ => ("RotatingFileHandler", p.level)).toList

/-- Whether a logger belongs to the transport library. -/
def isTransport (logger : String) : Bool :=
  logger == "pymavlink" || logger.startsWith "pymavlink."

/-- Whether a line of some level from some logger is shown. -/
def shows (p : LogPlan) (logger : String) (level : Int) : Bool :=
  0 < level && p.level ≤ level &&
    (!(p.holdsTransport && isTransport logger) || p.transportLevel ≤ level)

/-- A message as it is shown, without the time. A logger without a name is the root of all. -/
def line (logger : String) (level : Int) (text : String) : String :=
  let name := if logger.isEmpty then "root" else logger
  LevelName.ofLevel level ++ " [" ++ name ++ "] " ++ text

/-- What is shown of a sequence of messages. -/
def shown (p : LogPlan) (messages : List (String × Int × String)) : List String :=
  (messages.filter fun (logger, level, _) => p.shows logger level).map fun (logger, level, text) =>
    line logger level text

/-- The entries that are shown. -/
def select (p : LogPlan) (log : Log) : Log := log.filter fun e => p.level ≤ e.severity.level

end LogPlan

end InertialRelay
