import InertialRelay.Binary64.Sine
import InertialRelay.Frames.Quaternion
import InertialRelay.Num

/-!
# Frames of the vehicle and of the world

An autopilot reports its attitude from the aircraft frame (x forward, y right, z down) to the
north-east-down frame. The relay publishes it from the base frame (x forward, y left, z up) to the
east-north-up frame as well. Both changes are fixed rotations.
-/

namespace InertialRelay

namespace Quaternion

/-- The cosine and sine of half an angle. -/
def halfAngle (a : Num) : Except Fault (Float × Float) := do
  let h ← a.dividedBy 2
  if h.isInf then throw .domain
  return (Binary64.cos h, Binary64.sin h)

/-- The attitude with the given roll, pitch and yaw, in radians. -/
def ofAngles (roll pitch yaw : Num) : Except Fault (Quaternion Float) := do
  let (cr, sr) ← halfAngle roll
  let (cp, sp) ← halfAngle pitch
  let (cy, sy) ← halfAngle yaw
  return ofHalfAngles cr sr cp sp cy sy

/-- Takes a list of exactly four components apart. -/
def ofList? : List Float → Except Fault (Quaternion Float)
  | [w, x, y, z] => .ok ⟨w, x, y, z⟩
  | vs => .error (if vs.length < 4 then .tooFew 4 vs.length else .tooMany 4)

end Quaternion

/-- Takes a list of exactly three components apart. -/
def Vec3.ofList? : List Float → Except Fault (Vec3 Float)
  | [x, y, z] => .ok ⟨x, y, z⟩
  | _ => .error .shapeMismatch

/-- A vector from a list that has at least three numbers. -/
def Vec3.ofNums? : List Num → Except Fault (Vec3 Float)
  | x :: y :: z :: _ => (Vec3.mk x y z).mapM Num.toFloat
  | ns => do
    let _ ← ns.mapM Num.toFloat
    throw .shortList

/-- An orientation from a list that has at least four numbers, the scalar part first. -/
def Quaternion.ofNums? : List Num → Except Fault (Quaternion Float)
  | w :: x :: y :: z :: _ => (Quaternion.mk w x y z).mapM Num.toFloat
  | ns => do
    let _ ← ns.mapM Num.toFloat
    throw .shortList

namespace Frames

/-- From north-east-down to east-north-up: roll π and yaw π / 2, as binary64 values give it. -/
def nedToEnu : Quaternion Float where
  w := .ofBits 0x3c88f5a0be038ed7
  x := .ofBits 0x3fe6a09e667f3bcd
  y := .ofBits 0x3fe6a09e667f3bcc
  z := .ofBits 0x3c88f5a0be038ed5

/-- Between the aircraft and the base frame: roll π, as binary64 values give it. -/
def aircraftToBase : Quaternion Float where
  w := .ofBits 0x3c91a62633145c07
  x := .ofBits 0x3ff0000000000000
  y := .ofBits 0x0000000000000000
  z := .ofBits 0x0000000000000000

/-- The rotation between the aircraft and the base frame as a matrix. -/
def aircraftToBaseMatrix : Matrix3 Float := aircraftToBase.toMatrix

/-- An orientation relative to north-east-down as one relative to east-north-up. -/
def orientationToEnu (q : Quaternion Float) : Quaternion Float := nedToEnu.mul q

/-- An orientation of the aircraft frame as one of the base frame. -/
def orientationToBase (q : Quaternion Float) : Quaternion Float := q.mul aircraftToBase

/-- An attitude as an autopilot reports it, as one from the base frame to east-north-up. -/
def orientationToEnuBase (q : Quaternion Float) : Quaternion Float :=
  Quaternion.reframe nedToEnu aircraftToBase q

/-- A vector in the aircraft frame as one in the base frame. -/
def vectorToBase (v : Vec3 Float) : Vec3 Float := aircraftToBaseMatrix.mulVec v

end Frames

end InertialRelay
