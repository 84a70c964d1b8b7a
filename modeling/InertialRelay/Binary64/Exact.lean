/-!
# Binary64 values as exact numbers

A finite binary64 value is an integer times a power of two. On that form comparison with an integer
and truncation are exact, and a number `m * 2 ^ e` has one nearest binary64 value.
-/

namespace InertialRelay.Binary64

open Float.Model (UnpackedFloat)

/-- The power of two with exponent `e`. -/
def twoTo (e : Nat) : Nat := Nat.pow 2 e

/-- The exact content of a value: a sign, a mantissa and a power of two when it is finite. -/
def unpack (x : Float) : UnpackedFloat := x.toModel.unpack

/-- The integer `m` with a sign. -/
def signed : UnpackedFloat.Sign → Nat → Int
  | .negative, m => -m
  | .positive, m => m

/-- The value nearest to `m * 2 ^ e` with the given sign; a tie goes to the even mantissa and a
number beyond the largest finite value to infinity. -/
def ofScaled (negative : Bool) (m : Nat) (e : Int) : Float :=
  let sign : UnpackedFloat.Sign := if negative then .negative else .positive
  if m = 0 then ⟨.pack (.zero sign)⟩
  else ⟨.pack (.round .binary64 sign m e)⟩

/-- How `x` stands to the integer `n`; NaN stands in no order. -/
def compareInt (x : Float) (n : Int) : Option Ordering :=
  match unpack x with
  | .notANumber => none
  | .infinity .negative => some .lt
  | .infinity .positive => some .gt
  | .zero _ => some (compare 0 n)
  | .finite s m e _ =>
    if 0 ≤ e then some (compare (signed s m * twoTo e.toNat) n)
    else some (compare (signed s m) (n * twoTo (-e).toNat))

/-- The integer part of a finite value, toward zero. -/
def trunc? (x : Float) : Option Int :=
  match unpack x with
  | .notANumber | .infinity _ => none
  | .zero _ => some 0
  | .finite s m e _ =>
    if 0 ≤ e then some (signed s (m * twoTo e.toNat))
    else some (signed s (m / twoTo (-e).toNat))

/-- The integers from here on, on either side of zero, round beyond the largest finite value: it is
the midpoint between that value and the next power of two. -/
def tooLarge : Nat := twoTo 1024 - twoTo 970

/-- The value nearest to an integer, unless that is infinite. -/
def ofInt? (n : Int) : Option Float :=
  if tooLarge ≤ n.natAbs then none else some (Float.ofInt n)

end InertialRelay.Binary64
