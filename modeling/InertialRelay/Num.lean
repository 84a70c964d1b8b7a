import InertialRelay.Binary64.Exact
import InertialRelay.Fault

/-!
# Numbers as they arrive

A field of a message or a clock reading is an integer of any size or a binary64 value. Integers stay
exact among themselves and are rounded only where they meet a binary64 value; comparison is exact
throughout.
-/

namespace InertialRelay

inductive Num where
  | int (n : Int)
  | real (x : Float)
  deriving Repr, DecidableEq

namespace Num

/-- The nearest binary64 value. -/
def toFloat : Num → Except Fault Float
  | int n =>
    match Binary64.ofInt? n with
    | some x => .ok x
    | none => .error .intTooLarge
  | real x => .ok x

/-- The integer part, toward zero. -/
def toInt : Num → Except Fault Int
  | int n => .ok n
  | real x =>
    match Binary64.trunc? x with
    | some n => .ok n
    | none => .error (if x.isNaN then .nanToInt else .infinityToInt)

/-- The number times a coefficient. -/
def times (a : Num) (c : Float) : Except Fault Float := do
  return (← a.toFloat) * c

/-- The number divided by a coefficient. -/
def dividedBy (a : Num) (c : Float) : Except Fault Float := do
  return (← a.toFloat) / c

def add : Num → Num → Except Fault Num
  | int m, int n => .ok (int (m + n))
  | a, b => do
    let x ← a.toFloat
    let y ← b.toFloat
    return real (x + y)

def sub : Num → Num → Except Fault Num
  | int m, int n => .ok (int (m - n))
  | a, b => do
    let x ← a.toFloat
    let y ← b.toFloat
    return real (x - y)

def lt : Num → Num → Bool
  | int m, int n => m < n
  | real x, real y => x < y
  | int m, real y => Binary64.compareInt y m == some .gt
  | real x, int n => Binary64.compareInt x n == some .lt

def isZero : Num → Bool
  | int n => n == 0
  | real x => x == 0

/-- Whether the number is zero or less; NaN is not. -/
def isNonpositive (a : Num) : Bool := a.lt (int 0) || a.isZero

end Num

end InertialRelay
