import InertialRelay.Binary64.Exact

/-!
# Correctly rounded sine and cosine

Both functions are computed in integers scaled by a power of two: the argument is reduced by a
multiple of a quarter turn with as many bits of π as its size needs, and the Taylor series is summed
with every term cut off. The error stays below `slack` units, so when both ends of that error
interval round to one binary64 value it is the nearest one; otherwise the precision is doubled.

The functions of a host need not be rounded correctly. About one angle in a thousand has a sine or a
cosine there that differs from the one here in the last bit.
-/

namespace InertialRelay.Binary64

open Float.Model (UnpackedFloat)

namespace Trig

/-- `t - t₁ + t₂ - …` where every term is the one before times `square / 2 ^ p`, divided by `k` and
`k + 1` for `k` growing by two. -/
def alternating (p square : Nat) : Nat → Nat → Nat → Int
  | 0, _, _ => 0
  | fuel + 1, k, t =>
    if t = 0 then 0
    else t - alternating p square fuel (k + 2) (t * square / twoTo p / (k * (k + 1)))

/-- `t / k - t / q / (k + 2) + …`: the arc cotangent series for the square `q`. -/
def arccot (q : Nat) : Nat → Nat → Nat → Int
  | 0, _, _ => 0
  | fuel + 1, k, t =>
    if t = 0 then 0 else (t / k : Nat) - arccot q fuel (k + 2) (t / q)

/-- π scaled by `2 ^ p`, from π = 16 arccot 5 - 4 arccot 239. -/
def pi (p : Nat) : Nat :=
  let guard := 32
  let one := twoTo (p + guard)
  let a := arccot 25 one.log2 1 (one / 5)
  let b := arccot 57121 one.log2 1 (one / 239)
  (16 * a - 4 * b).toNat / twoTo guard

/-- An angle `quarters * π / 2 ± rest`, the rest scaled by `2 ^ p` and at most an eighth turn. -/
structure Reduced where
  quarters : Nat
  negative : Bool
  rest : Nat
  deriving Repr, DecidableEq

/-- Reduces `m * 2 ^ e`. A large argument costs as many extra bits of π as it has before the
point. -/
def reduce (p m : Nat) (e : Int) : Reduced :=
  let extra := ((m.log2 : Int) + 1 + e).toNat + 16
  let scale : Int := p + extra + e
  let x := if 0 ≤ scale then m * twoTo scale.toNat else m / twoTo (-scale).toNat
  let quarter := pi (p + extra) / 2
  let k := (2 * x + quarter) / (2 * quarter)
  if k * quarter ≤ x then ⟨k % 4, false, (x - k * quarter) / twoTo extra⟩
  else ⟨k % 4, true, (k * quarter - x) / twoTo extra⟩

def sinRest (p r : Nat) : Int := alternating p (r * r / twoTo p) p 2 r

def cosRest (p r : Nat) : Int := alternating p (r * r / twoTo p) p 1 (twoTo p)

/-- The sine of a reduced angle, scaled by `2 ^ p`. -/
def sin (p : Nat) (a : Reduced) : Int :=
  let s := if a.negative then -sinRest p a.rest else sinRest p a.rest
  match a.quarters with
  | 0 => s
  | 1 => cosRest p a.rest
  | 2 => -s
  | _ => -cosRest p a.rest

/-- The cosine is the sine a quarter turn further on. -/
def cos (p : Nat) (a : Reduced) : Int :=
  sin p { a with quarters := (a.quarters + 1) % 4 }

/-- The bound on the error of `sin` and `cos` in units of `2 ^ -p`. -/
def slack : Int := 65536

/-- The value nearest to `v * 2 ^ -p`. -/
def rounded (p : Nat) (v : Int) : Float := ofScaled (v < 0) v.natAbs (-p)

/-- The value to which all of `v - slack` to `v + slack` round, at the first precision where they
do. -/
def settle (f : Nat → Int) : List Nat → Float
  | [] => rounded 4096 (f 4096)
  | p :: ps =>
    let low := rounded p (f p - slack)
    if low.toBits = (rounded p (f p + slack)).toBits then low else settle f ps

def precisions : List Nat := [192, 384, 768, 1536, 3072]

/-- Below this size the sine of a value is the value itself, and its cosine 1, to the nearest. -/
def isTiny (m : Nat) (e : Int) : Bool := (m.log2 : Int) + 1 + e ≤ -27

end Trig

open Trig

/-- The value nearest to the sine of `x`; NaN for values that have none. -/
def sin (x : Float) : Float :=
  match unpack x with
  | .notANumber | .infinity _ => 0 / 0
  | .zero _ => x
  | .finite s m e _ =>
    if isTiny m e then x
    else settle (fun p => signed s 1 * Trig.sin p (reduce p m e)) precisions

/-- The value nearest to the cosine of `x`; NaN for values that have none. -/
def cos (x : Float) : Float :=
  match unpack x with
  | .notANumber | .infinity _ => 0 / 0
  | .zero _ => 1
  | .finite _ m e _ =>
    if isTiny m e then 1 else settle (fun p => Trig.cos p (reduce p m e)) precisions

end InertialRelay.Binary64
