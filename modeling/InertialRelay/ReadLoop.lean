import InertialRelay.Subscribers

/-!
# Reading from a transport

The loop asks the transport for a message, processes what comes, and then looks for a timeout. A
transport that fails is asked again at once. The loop ends when it is stopped, or at the first fault
of a message or a listener.
-/

namespace InertialRelay

/-- What the transport answers when it is asked for a message. -/
inductive Received where
  | nothing
  | failed (text : String)
  | message (w : WireMessage)
  deriving Repr, DecidableEq

/-- One turn of the loop: the answer, whether the loop was stopped while it waited, and the clock
when the message is processed and when the timeout is checked. -/
structure Cycle (τ : Type) where
  received : Received
  stopped : Bool := false
  atMessage : τ
  atCheck : τ
  deriving Repr, DecidableEq

namespace ReadLoop

variable {σ τ : Type}

/-- One turn. -/
def turn [Timescale τ] (audience : Audience τ σ) (c : Cycle τ) (l : Link τ) (s : σ) :
    Linked τ σ :=
  match c.received with
  | .failed text => ⟨l, s, [⟨.debug, .link, "MAVLink recv error: " ++ text⟩], none⟩
  | .nothing => if c.stopped then ⟨l, s, [], none⟩ else audience.checkTimeout c.atCheck l s
  | .message w =>
    if c.stopped then ⟨l, s, [], none⟩
    else
      let r := audience.process c.atMessage w l s
      match r.fault with
      | some _ => r
      | none =>
        let r' := audience.checkTimeout c.atCheck r.link r.state
        { r' with log := r.log ++ r'.log }

/-- The turns up to the end of the script, a stop or a fault. -/
def run [Timescale τ] (audience : Audience τ σ) : List (Cycle τ) → Link τ → σ → Linked τ σ
  | [], l, s => ⟨l, s, [], none⟩
  | c :: rest, l, s =>
    let r := turn audience c l s
    if c.stopped || r.fault.isSome then r
    else
      let r' := run audience rest r.link r.state
      { r' with log := r.log ++ r'.log }

/-- The number of turns that `run` takes. -/
def turns [Timescale τ] (audience : Audience τ σ) : List (Cycle τ) → Link τ → σ → Nat
  | [], _, _ => 0
  | c :: rest, l, s =>
    let r := turn audience c l s
    if c.stopped || r.fault.isSome then 1 else turns audience rest r.link r.state + 1

end ReadLoop

/-- What happens on a scripted transport. -/
inductive ScriptItem where
  /-- Time passes without a message. -/
  | clock (now : Num)
  | failure (text : String)
  | message (w : WireMessage)
  deriving Repr, DecidableEq

namespace ScriptItem

/-- The turns of the loop for a script that starts at reading `now`. -/
def cycles : Num → List ScriptItem → List (Cycle Num)
  | _, [] => []
  | _, clock now :: rest =>
    { received := .nothing, atMessage := now, atCheck := now } :: cycles now rest
  | now, failure text :: rest =>
    { received := .failed text, atMessage := now, atCheck := now } :: cycles now rest
  | now, message w :: rest =>
    { received := .message w, atMessage := now, atCheck := now } :: cycles now rest

/-- The reading of the clock after a script. -/
def finalClock (now : Num) (script : List ScriptItem) : Num :=
  script.foldl (fun now item => match item with
    | clock now => now
    | _ => now) now

end ScriptItem

end InertialRelay
