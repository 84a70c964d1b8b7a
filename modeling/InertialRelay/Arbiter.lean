import InertialRelay.Fault
import InertialRelay.Log.Entry

/-!
# Choosing one source per quantity

An autopilot reports one quantity in messages of several kinds. The arbiter remembers the best
source seen of each class; a message from a better or equal source is accepted, one from a lesser
source is refused. Pressure of its own is refused once high resolution messages, which carry it,
were seen.
-/

namespace InertialRelay

inductive AttitudeSource where
  | unseen
  | euler
  | quaternion
  deriving Repr, DecidableEq

inductive InertialSource where
  | unseen
  | raw
  | scaled
  | highres
  deriving Repr, DecidableEq

namespace AttitudeSource

def name : AttitudeSource → String
  | unseen => "NONE"
  | euler => "EULER"
  | quaternion => "QUATERNION"

/-- The better source has the higher rank. -/
def rank : AttitudeSource → Nat
  | unseen => 0
  | euler => 1
  | quaternion => 2

def all : List AttitudeSource := [unseen, euler, quaternion]

def ofName? (s : String) : Option AttitudeSource := all.find? (·.name == s)

/-- The source of an attitude message. -/
def ofKind? : Kind → Option AttitudeSource
  | .attitude => some euler
  | .attitudeQuaternion => some quaternion
  | _ => none

/-- The best source after a message from `offered`, and whether that message is accepted. -/
def meet (best offered : AttitudeSource) : AttitudeSource × Bool :=
  if offered.rank < best.rank then (best, false) else (offered, true)

def onKind (best : AttitudeSource) (k : Kind) : Except Fault (AttitudeSource × Bool) :=
  match ofKind? k with
  | some offered => .ok (best.meet offered)
  | none => .error (.notAttitudeKind k)

/-- What is said when a source is seen for the first time. -/
def announcement? : AttitudeSource → Option String
  | quaternion => some "IMU: Attitude quaternion IMU detected!"
  | _ => none

def describe (s : AttitudeSource) : String :=
  "<AttitudeSource." ++ s.name ++ ": " ++ toString s.rank ++ ">"

end AttitudeSource

namespace InertialSource

def name : InertialSource → String
  | unseen => "NONE"
  | raw => "RAW"
  | scaled => "SCALED"
  | highres => "HIGHRES"

/-- The better source has the higher rank. -/
def rank : InertialSource → Nat
  | unseen => 0
  | raw => 1
  | scaled => 2
  | highres => 3

def all : List InertialSource := [unseen, raw, scaled, highres]

def ofName? (s : String) : Option InertialSource := all.find? (·.name == s)

/-- The source of an inertial message. -/
def ofKind? : Kind → Option InertialSource
  | .rawImu => some raw
  | .scaledImu => some scaled
  | .highresImu => some highres
  | _ => none

/-- The best source after a message from `offered`, and whether that message is accepted. -/
def meet (best offered : InertialSource) : InertialSource × Bool :=
  if offered.rank < best.rank then (best, false) else (offered, true)

def onKind (best : InertialSource) (k : Kind) : Except Fault (InertialSource × Bool) :=
  match ofKind? k with
  | some offered => .ok (best.meet offered)
  | none => .error (.notInertialKind k)

/-- Whether pressure messages are of use beside this source. -/
def acceptsPressure (best : InertialSource) : Bool := best != highres

/-- What is said when a source is seen for the first time. -/
def announcement? : InertialSource → Option String
  | highres => some "IMU: High resolution IMU detected!"
  | scaled => some "IMU: Scaled IMU message used."
  | _ => none

def describe (s : InertialSource) : String :=
  "<InertialSource." ++ s.name ++ ": " ++ toString s.rank ++ ">"

end InertialSource

/-- The best sources seen since the last reset. -/
structure Arbiter where
  attitude : AttitudeSource := .unseen
  inertial : InertialSource := .unseen
  deriving Repr, DecidableEq

namespace Arbiter

/-- The outcome of offering a message to the arbiter. -/
structure Verdict where
  arbiter : Arbiter
  accepted : Bool
  log : Log
  deriving Repr, DecidableEq

def describe (a : Arbiter) : String :=
  "ArbiterState(attitude=" ++ a.attitude.describe ++ ", inertial=" ++ a.inertial.describe ++ ")"

/-- The line for a source that was not the best one before. -/
def announce (changed : Bool) (text? : Option String) : Log :=
  match changed, text? with
  | true, some text => [⟨.info, .arbiter, text⟩]
  | _, _ => []

/-- The line for a refused message. -/
def refusal (a : Arbiter) (k : Kind) (accepted : Bool) : Log :=
  if accepted then []
  else [⟨.debug, .arbiter, "Dropped " ++ k.name ++ " (state=" ++ a.describe ++ ")"⟩]

/-- Decides about a message of kind `k`. -/
def accept (a : Arbiter) (k : Kind) : Verdict :=
  match AttitudeSource.ofKind? k, InertialSource.ofKind? k with
  | some offered, _ =>
    let (best, accepted) := a.attitude.meet offered
    let a' := { a with attitude := best }
    ⟨a', accepted, announce (best != a.attitude) best.announcement? ++ a'.refusal k accepted⟩
  | none, some offered =>
    let (best, accepted) := a.inertial.meet offered
    let a' := { a with inertial := best }
    ⟨a', accepted, announce (best != a.inertial) best.announcement? ++ a'.refusal k accepted⟩
  | none, none =>
    let accepted := a.inertial.acceptsPressure
    ⟨a, accepted, a.refusal k accepted⟩

/-- Forgets which sources were seen. -/
def reset (_ : Arbiter) : Arbiter := {}

end Arbiter

end InertialRelay
