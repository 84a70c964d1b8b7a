import InertialRelay.Num

/-!
# Covariances

A covariance of three components is nine numbers by rows. Consumers of the records read a first
entry of -1 as "unknown".
-/

namespace InertialRelay

structure Covariance where
  entries : List Float
  length_entries : entries.length = 9
  deriving Repr, DecidableEq

namespace Covariance

def unknown : Covariance := ⟨[-1, 0, 0, 0, 0, 0, 0, 0, 0], rfl⟩

def diagonal (v : Float) : Covariance := ⟨[v, 0, 0, 0, v, 0, 0, 0, v], rfl⟩

/-- The square of a number, as the platform raises to a power. That may differ from the product in
the last bit, but it is out of range where the product is. A finite number must have a finite
square. -/
def square (x : Float) : Except Fault Float :=
  if (x * x).isInf && x.isFinite then .error .squareTooLarge else .ok (x.pow 2)

/-- The covariance of independent components with one standard deviation; a deviation of zero means
that it is not known. -/
def ofStdev (s : Num) : Except Fault Covariance :=
  if s.isZero then .ok unknown
  else do
    let x ← s.toFloat
    return diagonal (← square x)

end Covariance

end InertialRelay
