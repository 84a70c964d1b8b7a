import InertialRelay.Config.Model
import InertialRelay.ReadLoop
import InertialRelay.Text.Quoted

/-!
# Receivers

A receiver owns a link and the transport behind it: it opens the transport, reads from it until it
is stopped, and closes it.
-/

namespace InertialRelay

namespace Data

/-- What a value is called where a number was asked for. -/
def typeName : Data → String
  | null => "NoneType"
  | bool _ => "bool"
  | int _ => "int"
  | real _ => "float"
  | str _ => "str"
  | date => "datetime.date"
  | list _ => "list"
  | tuple _ => "tuple"
  | map _ => "dict"

/-- The characters of a numeral, with the digits of all scripts in ASCII. -/
def numeral (s : String) : List Char := s.toList.map Text.asciiDigit

/-- The integer that a text writes. -/
def intOfText (s : String) : Except Fault Int :=
  match Text.Numeral.int (numeral s) with
  | .value n => .ok n
  | .tooLong digits => .error (.longInt Text.Numeral.maxDigits digits)
  | .unreadable => .error (.unreadableInt 10 (Text.quoted s))

/-- The integer that a value stands for; of a float the part before the point. -/
def toInt : Data → Except Fault Int
  | int n => .ok n
  | bool b => .ok (if b then 1 else 0)
  | real x => (Num.real x).toInt
  | str s => intOfText s
  | d => .error (.noInt d.typeName)

/-- The float that a value stands for. -/
def toFloat : Data → Except Fault Float
  | int n => (Num.int n).toFloat
  | bool b => .ok (if b then 1 else 0)
  | real x => .ok x
  | str s =>
    match Text.Numeral.float? (numeral s) with
    | some x => .ok x
    | none => .error (.unreadableFloat (Text.quoted s))
  | d => .error (.noFloat d.typeName)

end Data

/-- How a link is opened and when it counts as lost. -/
structure LinkSettings where
  url : String
  sourceSystem : Int
  sourceComponent : Int
  connTimeout : Float
  deriving Repr, DecidableEq

namespace LinkSettings

/-- Settings from untyped values, checked in the order in which they are given. -/
def ofData (url : String) (system component timeout : Data) : Except Fault LinkSettings := do
  let system ← system.toInt
  let component ← component.toInt
  let timeout ← timeout.toFloat
  return ⟨url, system, component, timeout⟩

def ofConfig (c : LinkConfig) : LinkSettings :=
  ⟨c.url, c.sourceSystem, c.sourceComponent, c.connTimeout⟩

end LinkSettings

/-- What a transport will do once it is asked to open. -/
structure Transport where
  script : List ScriptItem := []
  openFailure : Option String := none
  closeFailure : Option String := none
  deriving Repr, DecidableEq

structure Receiver where
  settings : LinkSettings
  link : Link Num
  running : Bool := false
  /-- What goes wrong when the open transport is closed. -/
  closeFailure : Option String := none
  deriving Repr, DecidableEq

namespace Receiver

def ofSettings (s : LinkSettings) : Receiver where
  settings := s
  link := { timeout := .real s.connTimeout }

/-- The outcome of starting: what the caller sees, and what happened while reading. -/
structure Started (σ : Type) where
  receiver : Receiver
  state : σ
  log : Log := []
  /-- Whether a transport was asked to open. -/
  opened : Bool := false
  fault : Option Fault := none
  readLog : Log := []
  readFault : Option Fault := none
  /-- The reading of the clock at the end. -/
  clock : Num

/-- Opens a transport and reads its script, starting at reading `now`, to the end or to a fault. A
receiver that runs already does nothing. -/
def start {σ : Type} (audience : Audience Num σ) (t : Transport) (now : Num) (r : Receiver)
    (s : σ) : Started σ :=
  if r.running then { receiver := r, state := s, clock := now }
  else
    let log : Log := [⟨.info, .link, "Opening MAVLink connection " ++ r.settings.url⟩]
    match t.openFailure with
    | some text =>
      { receiver := r, state := s, log, opened := true, fault := some (.transport text)
        clock := now }
    | none =>
      let cycles := ScriptItem.cycles now t.script
      let read := ReadLoop.run audience cycles r.link s
      let turns := ReadLoop.turns audience cycles r.link s
      { receiver :=
          { r with link := read.link, running := true, closeFailure := t.closeFailure }
        state := read.state, log, opened := true
        readLog := read.log, readFault := read.fault
        clock := ScriptItem.finalClock now (t.script.take turns) }

/-- Ends reading and closes the transport; a failure to close is only logged. -/
def stop (r : Receiver) : Receiver × Log :=
  if r.running then
    ({ r with running := false, closeFailure := none },
      ⟨.info, .link, "Closing MAVLink connection"⟩ ::
        (r.closeFailure.map fun text =>
          (⟨.debug, .link, "MAVLink close error: " ++ text⟩ : LogEntry)).toList)
  else (r, [])

end Receiver

end InertialRelay
