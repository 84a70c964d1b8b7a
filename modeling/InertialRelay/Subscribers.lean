import InertialRelay.Link
import InertialRelay.Reaction

/-!
# Subscribers of a link

Handlers are told every message. A handler that fails is logged and does not keep the others from
the message. Listeners are told every change of the connection; the first one that fails ends the
announcement.
-/

namespace InertialRelay

/-- Those who are told what a link notices, acting on a state `σ`. -/
structure Subscribers (σ : Type) where
  handlers : List (Message → σ → Reaction σ)
  listeners : List (Bool → σ → Reaction σ)

namespace Subscribers

variable {σ τ : Type}

/-- The line about a handler that failed. -/
def complaint (k : Kind) (f : Fault) : LogEntry :=
  ⟨.warning, .link, "IMU handler failed on " ++ k.name ++ ": " ++ f.message⟩

/-- Hands a message to every handler. -/
def deliver (m : Message) : List (Message → σ → Reaction σ) → σ → Reaction σ
  | [], s => ⟨s, [], none⟩
  | h :: rest, s =>
    let r := h m s
    let r' := deliver m rest r.state
    ⟨r'.state, r.log ++ (r.fault.map (complaint m.kind)).toList ++ r'.log, none⟩

/-- Tells listeners about a change until one of them fails. -/
def announce (connected : Bool) (listeners : List (Bool → σ → Reaction σ)) (s : σ) :
    Reaction σ :=
  Reaction.untilFault (fun listener => listener connected) listeners s

/-- Passes on what a link noticed. -/
def tell (subscribers : Subscribers σ) (notice : Notice) (s : σ) : Reaction σ :=
  match notice with
  | .message m => deliver m subscribers.handlers s
  | .connection connected => announce connected subscribers.listeners s

end Subscribers

/-- A link and the state of its subscribers after an event. -/
structure Linked (τ σ : Type) where
  link : Link τ
  state : σ
  log : Log := []
  fault : Option Fault := none

/-- Subscribers may look at the link and at the clock when they are told something. -/
abbrev Audience (τ σ : Type) := Link τ → τ → Subscribers σ

namespace Audience

variable {σ τ : Type}

/-- Passes on the outcome of an event that happened at reading `now`. -/
def relay (audience : Audience τ σ) (now : τ) (o : Link.Outcome τ) (s : σ) : Linked τ σ :=
  match o.notice with
  | .error f => ⟨o.link, s, o.log, some f⟩
  | .ok none => ⟨o.link, s, o.log, none⟩
  | .ok (some notice) =>
    let r := (audience o.link now).tell notice s
    ⟨o.link, r.state, o.log ++ r.log, r.fault⟩

def process (audience : Audience τ σ) (now : τ) (w : WireMessage) (l : Link τ) (s : σ) :
    Linked τ σ :=
  audience.relay now (l.receive now w) s

def checkTimeout [Timescale τ] (audience : Audience τ σ) (now : τ) (l : Link τ) (s : σ) :
    Linked τ σ :=
  audience.relay now (l.checkTimeout now) s

end Audience

end InertialRelay
