import InertialRelay.Text.Numeral
import InertialRelay.Text.Quoted

/-!
# The command line

`imu-bridge run` with options that all take a value. An option may be shortened as long as only one
fits, and may have its value behind an equals sign. The first thing that is wrong from the left is
reported; arguments that nobody asked for are reported last.
-/

namespace InertialRelay.CommandLine

/-- An option: its names, and whether it takes a value. -/
structure OptionSpec where
  names : List String
  takesValue : Bool
  deriving Repr, DecidableEq

inductive Problem where
  | required (names : String)
  | invalidChoice (quoted : String)
  | unrecognized (args : List String)
  | expectedValue (option : String)
  | unexpectedValue (option quoted : String)
  | invalidFloat (quoted : String)
  | ambiguous (arg : String) (names : List String)
  deriving Repr, DecidableEq

def Problem.message : Problem → String
  | required names => "the following arguments are required: " ++ names
  | invalidChoice quoted => "argument cmd: invalid choice: " ++ quoted ++ " (choose from 'run')"
  | unrecognized args => "unrecognized arguments: " ++ " ".intercalate args
  | expectedValue option => "argument " ++ option ++ ": expected one argument"
  | unexpectedValue option quoted =>
    "argument " ++ option ++ ": ignored explicit argument " ++ quoted
  | invalidFloat quoted => "argument --duration: invalid float value: " ++ quoted
  | ambiguous arg names =>
    "ambiguous option: " ++ arg ++ " could match " ++ ", ".intercalate names

/-- A problem and the part of the command that found it. -/
structure UsageError where
  program : String
  problem : Problem
  deriving Repr, DecidableEq

def UsageError.message (e : UsageError) : String :=
  e.program ++ ": error: " ++ e.problem.message

/-- What an argument is taken for. -/
inductive Argument where
  | value (text : String)
  /-- Two dashes: everything after them is a value. -/
  | separator
  | option (spec : OptionSpec) (name : String) (explicit : Option String)
  | unknown (text : String)
  deriving Repr, DecidableEq

/-- An argument without the line break at its end, if it has one. -/
def dropFinalBreak (arg : String) : List Char :=
  match arg.toList.reverse with
  | '\n' :: rest => rest.reverse
  | _ => arg.toList

/-- Whether an argument that starts with a dash is a number all the same. -/
def isNegativeNumber (arg : String) : Bool :=
  match (dropFinalBreak arg).map Text.asciiDigit with
  | '-' :: rest =>
    let (whole, rest) := Text.Numeral.splitDigits rest
    match rest with
    | [] => !whole.isEmpty
    | '.' :: part => !part.isEmpty && part.all Char.isDigit
    | _ => false
  | _ => false

/-- An argument at its first equals sign. -/
def splitAtEquals (arg : String) : String × Option String :=
  let cs := arg.toList
  match cs.dropWhile (· != '=') with
  | [] => (arg, none)
  | _ :: rest => (String.ofList (cs.takeWhile (· != '=')), some (String.ofList rest))

def findExact (specs : List OptionSpec) (name : String) : Option OptionSpec :=
  specs.find? (·.names.contains name)

/-- The options that an argument may shorten, with the name and the value it gives them. -/
def candidates (specs : List OptionSpec) (arg : String) : List Argument :=
  let all := specs.flatMap fun s => s.names.map fun n => (s, n)
  if arg.startsWith "--" then
    let (start, explicit) := splitAtEquals arg
    all.filterMap fun (s, n) =>
      if n.startsWith start then some (.option s n explicit) else none
  else
    let short := String.ofList (arg.toList.take 2)
    let rest := String.ofList (arg.toList.drop 2)
    all.filterMap fun (s, n) =>
      if n == short then some (.option s n (some rest))
      else if n.startsWith arg then some (.option s n none)
      else none

/-- What an argument before any separator is taken for. -/
def classify (specs : List OptionSpec) (arg : String) : Except Problem Argument :=
  if !arg.startsWith "-" || arg == "-" then .ok (.value arg)
  else
    match findExact specs arg with
    | some s => .ok (.option s arg none)
    | none =>
      let (name, explicit) := splitAtEquals arg
      match explicit.bind fun _ => findExact specs name with
      | some s => .ok (.option s name explicit)
      | none =>
        match candidates specs arg with
        | [a] => .ok a
        | [] =>
          if isNegativeNumber arg || arg.contains ' ' then .ok (.value arg)
          else .ok (.unknown arg)
        | as =>
          .error (.ambiguous arg (as.filterMap fun
            | .option _ n _ => some n
            | _ => none))

/-- What the arguments are taken for. -/
def classifyAll (specs : List OptionSpec) : List String → Except Problem (List Argument)
  | [] => .ok []
  | "--" :: rest => .ok (.separator :: rest.map .value)
  | arg :: rest => do
    let a ← classify specs arg
    return a :: (← classifyAll specs rest)

/-- The text of an argument that nobody asked for. -/
def Argument.text : Argument → String
  | value text => text
  | separator => "--"
  | option _ name _ => name
  | unknown text => text

/-! ## The options of the run command -/

/-- What the run command was told. -/
structure RunOptions where
  url : Option String := none
  config : Option String := none
  logLevel : Option String := none
  output : Option String := none
  duration : Option Float := none
  deriving Repr, DecidableEq

def helpSpec : OptionSpec := ⟨["-h", "--help"], false⟩

def runSpecs : List OptionSpec :=
  [helpSpec, ⟨["--url"], true⟩, ⟨["--config"], true⟩, ⟨["--log-level"], true⟩,
    ⟨["--output"], true⟩, ⟨["--duration"], true⟩]

/-- Sets an option to a value. -/
def RunOptions.set (o : RunOptions) (s : OptionSpec) (v : String) : Except Problem RunOptions :=
  match s.names with
  | ["--url"] => .ok { o with url := some v }
  | ["--config"] => .ok { o with config := some v }
  | ["--log-level"] => .ok { o with logLevel := some v }
  | ["--output"] => .ok { o with output := some v }
  | ["--duration"] =>
    match Text.Numeral.float? (v.toList.map Text.asciiDigit) with
    | some x => .ok { o with duration := some x }
    | none => .error (.invalidFloat (Text.quoted v))
  | _ => .ok o

/-- How far the reading of options came: to the end with what is left over, or to a request for
help. -/
inductive Progress where
  | help
  | done (o : RunOptions) (extras : List String)
  deriving Repr, DecidableEq

/-- An option without a value that was given one. After a single dash the value may be the same
option again, any number of times; the complaint is about what follows. -/
def flagWithValue (s : OptionSpec) (name value : String) : Except Problem Progress :=
  let shown := "/".intercalate s.names
  let rest := String.ofList (value.toList.dropWhile (· == 'h'))
  if name.startsWith "--" || value.isEmpty then
    .error (.unexpectedValue shown (Text.quoted value))
  else if rest.isEmpty then .ok .help
  else .error (.unexpectedValue shown (Text.quoted rest))

/-- Reads options from the left. -/
def readRun (o : RunOptions) (extras : List String) : List Argument → Except Problem Progress
  | [] => .ok (.done o extras)
  | .option s name explicit :: rest =>
    if s.takesValue then
      match explicit, rest with
      | some v, rest => do readRun (← o.set s v) extras rest
      | none, .value v :: rest => do readRun (← o.set s v) extras rest
      | none, _ => .error (.expectedValue ("/".intercalate s.names))
    else
      match explicit with
      | some v => flagWithValue s name v
      | none => .ok .help
  | a :: rest => readRun o (extras ++ [a.text]) rest

/-- What the program was asked to do. -/
inductive Command where
  | help
  | run (o : RunOptions)
  deriving Repr, DecidableEq

def program : String := "imu-bridge"

def runProgram : String := "imu-bridge run"

/-- Labels problems with the part of the command that found them. -/
def as {α : Type} (program : String) (x : Except Problem α) : Except UsageError α :=
  x.mapError fun p => ⟨program, p⟩

/-- The arguments before the command, down to the command itself: what is left over so far, and the
command with its arguments. -/
def findCommand (extras : List String) :
    List (Argument × String) → Except Problem (Option (List String × List String))
  | [] => .error (.required "cmd")
  | (.value v, _) :: rest => .ok (some (extras, v :: rest.map (·.2)))
  | (.separator, _) :: rest =>
    if rest.isEmpty then .error (.required "cmd")
    else .ok (some (extras, "--" :: rest.map (·.2)))
  | (.option s name explicit, _) :: _ =>
    match explicit with
    | some v => (flagWithValue s name v).map fun _ => none
    | none => .ok none
  | (.unknown text, _) :: rest => findCommand (extras ++ [text]) rest

/-- Reads a command line; `url` and `logLevel` are what the environment says. -/
def parse (url logLevel : Option String) (args : List String) : Except UsageError Command := do
  let classified ← as program (classifyAll [helpSpec] args)
  match ← as program (findCommand [] (classified.zip args)) with
  | none => return .help
  | some (extras, cmd :: rest) =>
    if cmd != "run" then throw ⟨program, .invalidChoice (Text.quoted cmd)⟩
    let classified ← as runProgram (classifyAll runSpecs rest)
    match ← as runProgram (readRun { url, logLevel } [] classified) with
    | .help => return .help
    | .done o more =>
      if (extras ++ more).isEmpty then return .run o
      else throw ⟨program, .unrecognized (extras ++ more)⟩
  | some (_, []) => throw ⟨program, .required "cmd"⟩

end InertialRelay.CommandLine
