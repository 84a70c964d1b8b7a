import InertialRelay.Timescale
import InertialRelay.Wire

/-!
# The link to a vehicle

The first vehicle heartbeat locks the link to the system that sent it. The vehicle counts as
connected from a heartbeat until none was accepted for longer than the timeout. What a link notices
is a value; telling subscribers about it is left to its owner.
-/

namespace InertialRelay

/-- What a link has to tell. -/
inductive Notice where
  | message (m : Message)
  | connection (connected : Bool)
  deriving Repr, DecidableEq

structure Link (τ : Type) where
  /-- The longest time between two heartbeats of a connected vehicle. -/
  timeout : τ
  connected : Bool := false
  autopilot : Option Int := none
  vehicleType : Option Int := none
  /-- The system the link is locked to. -/
  target : Option Int := none
  lastHeartbeat : Option τ := none
  deriving Repr, DecidableEq

namespace Link

/-- A link after an event: lines in the log, and either a notice, or none, or a fault. -/
structure Outcome (τ : Type) where
  link : Link τ
  log : Log := []
  notice : Except Fault (Option Notice) := .ok none

variable {τ : Type}

/-- The autopilot code of what is no vehicle: ground stations and companion computers. -/
def invalidAutopilot : Int := 8

def ardupilotCode : Int := 3

/-- Whether the firmware belongs to the ArduPilot family. -/
def isArdupilot (l : Link τ) : Bool := l.autopilot == some ardupilotCode

/-- Whether a system is the one the link is locked to, or may become it. -/
def admits (l : Link τ) (system : Int) : Bool :=
  match l.target with
  | none => true
  | some target => system == target

/-- The code of an integer field. -/
def code (w : WireMessage) (name : String) : Except Fault Int := do
  (← w.field? name).toInt

/-- What follows once a heartbeat is complete. -/
def beat (l : Link τ) (now : τ) (system autopilot vehicleType : Int) : Outcome τ :=
  let l' : Link τ := { l with
    target := some system, autopilot := some autopilot, vehicleType := some vehicleType
    lastHeartbeat := some now }
  if l.connected then { link := l' }
  else
    { link := { l' with connected := true }
      log := [⟨.info, .link, "Got HEARTBEAT, connected to system " ++ toString system ++
        " (autopilot=" ++ toString autopilot ++ ")"⟩]
      notice := .ok (some (.connection true)) }

/-- Takes a heartbeat. The link locks on before the vehicle type is read, so a heartbeat without a
usable type leaves it locked. -/
def heartbeat (l : Link τ) (now : τ) (w : WireMessage) : Outcome τ :=
  match code w "autopilot" with
  | .error f => { link := l, notice := .error f }
  | .ok autopilot =>
    if autopilot = invalidAutopilot || !l.admits w.system then { link := l }
    else
      match code w "type" with
      | .error f =>
        { link := { l with target := some w.system, autopilot := some autopilot }
          notice := .error f }
      | .ok vehicleType => l.beat now w.system autopilot vehicleType

/-- Takes a message that was received at reading `now`. -/
def receive (l : Link τ) (now : τ) (w : WireMessage) : Outcome τ :=
  if w.type = "BAD_DATA" then { link := l }
  else if w.type = "HEARTBEAT" then l.heartbeat now w
  else if !l.admits w.system then { link := l }
  else
    let (m?, log) := w.decode
    { link := l, log, notice := .ok (m?.map .message) }

/-- What follows when the timeout has passed. -/
def lose (l : Link τ) : Outcome τ where
  link := { l with connected := false }
  log := [⟨.warning, .link, "Connection to system " ++
    (l.target.map toString).getD "None" ++ " timed out"⟩]
  notice := .ok (some (.connection false))

/-- Notices at reading `now` that the heartbeats of a connected vehicle stopped. -/
def checkTimeout [Timescale τ] (l : Link τ) (now : τ) : Outcome τ :=
  match l.connected, l.lastHeartbeat with
  | true, some last =>
    match Timescale.between last now with
    | .error f => { link := l, notice := .error f }
    | .ok elapsed => if Timescale.less l.timeout elapsed then l.lose else { link := l }
  | _, _ => { link := l }

end Link

end InertialRelay
