import InertialRelay.Binary64.Exact

/-!
# Shortest decimals

The shortest decimal that reads back as a given binary64 value. All reals that round to `m * 2 ^ q`
lie in an interval around it; the shortest decimal is the point nearest to the value on the
coarsest grid of powers of ten that has a point in the interval. If a grid has such a point, one of
the two grid points next to the value is one.
-/

namespace InertialRelay.Binary64

open Float.Model (UnpackedFloat)

/-- The power of ten with exponent `e`. -/
def tenTo (e : Nat) : Nat := Nat.pow 10 e

/-- The number `digits * 10 ^ exponent`. -/
structure Decimal where
  digits : Nat
  exponent : Int
  deriving Repr, DecidableEq

/-- The reals that round to a positive value, in quarters of the unit `2 ^ exponent`. -/
structure Interval where
  lower : Nat
  value : Nat
  upper : Nat
  /-- Whether the end points round to the value too. -/
  closed : Bool
  exponent : Int
  deriving Repr, DecidableEq

namespace Interval

/-- The interval of `m * 2 ^ q`. Below a power of two the next value is only half a unit away, save
at the bottom of the range where units do not shrink. -/
def ofMantissa (m : Nat) (q : Int) : Interval where
  lower := 4 * m - (if m = twoTo 52 ∧ -1074 < q then 1 else 2)
  value := 4 * m
  upper := 4 * m + 2
  closed := m % 2 = 0
  exponent := q - 2

/-- The factors that bring the interval and the grid `10 ^ k` to one scale. -/
def factors (i : Interval) (k : Int) : Nat × Nat :=
  (twoTo i.exponent.toNat * tenTo (-k).toNat, twoTo (-i.exponent).toNat * tenTo k.toNat)

/-- Whether `d * 10 ^ k` lies in the interval. -/
def contains (i : Interval) (k : Int) (d : Nat) : Bool :=
  let (a, b) := i.factors k
  if i.closed then i.lower * a ≤ d * b && d * b ≤ i.upper * a
  else i.lower * a < d * b && d * b < i.upper * a

/-- The grid point of `10 ^ k` in the interval that is nearest to the value, of two at the same
distance the even one. -/
def nearest? (i : Interval) (k : Int) : Option Nat :=
  let (a, b) := i.factors k
  let below := i.value * a / b
  let above := below + 1
  match i.contains k below, i.contains k above with
  | false, false => none
  | true, false => some below
  | false, true => some above
  | true, true =>
    let toBelow := i.value * a - below * b
    let toAbove := above * b - i.value * a
    if toBelow < toAbove || (toBelow == toAbove && below % 2 == 0) then some below else some above

/-- The first of the grids `10 ^ k`, `10 ^ (k - 1)`, … with a point in the interval. -/
def coarsest (i : Interval) : Nat → Int → Option Decimal
  | 0, _ => none
  | n + 1, k =>
    match i.nearest? k with
    | some d => some ⟨d, k⟩
    | none => i.coarsest n (k - 1)

end Interval

/-- The shortest decimal for `m * 2 ^ q`. The search starts above the value, at a power of ten found
from its binary exponent; 17 digits tell all values apart, so it ends within twenty grids. -/
def shortest (m : Nat) (q : Int) : Decimal :=
  let top := ((m.log2 : Int) + q) * 30103 / 100000 + 2
  ((Interval.ofMantissa m q).coarsest 22 top).getD ⟨m, 0⟩

end InertialRelay.Binary64
