import InertialRelay.Num

/-!
# Time scales

What is asked of clock readings: the time between two of them, and which of two times is less. The
relay runs on numbers as they arrive, where a difference is rounded and can fail; on a scale with
exact differences the same definitions say what the relay is meant to do.
-/

namespace InertialRelay

class Timescale (τ : Type) where
  /-- The time from the first reading to the second. -/
  between : τ → τ → Except Fault τ
  less : τ → τ → Bool

instance : Timescale Num where
  between earlier later := later.sub earlier
  less := Num.lt

/-- Lets a caller through at most once per period. -/
structure Throttle (τ : Type) where
  period : τ
  /-- The reading at which a caller was last let through. -/
  last : Option τ := none
  deriving Repr, DecidableEq

namespace Throttle

variable {τ : Type}

/-- Whether a caller is let through at reading `now`. -/
def ready [Timescale τ] (t : Throttle τ) (now : τ) : Except Fault (Bool × Throttle τ) :=
  match t.last with
  | none => .ok (true, { t with last := some now })
  | some last => do
    let elapsed ← Timescale.between last now
    if Timescale.less elapsed t.period then return (false, t)
    else return (true, { t with last := some now })

/-- The answers at a sequence of readings. -/
def answers [Timescale τ] (t : Throttle τ) : List τ → Except Fault (List Bool)
  | [] => .ok []
  | now :: rest => do
    let (answer, t) ← t.ready now
    return answer :: (← t.answers rest)

/-- A throttle whose period is a binary64 value. -/
def ofPeriod (period : Num) : Except Fault (Throttle Num) := do
  return { period := .real (← period.toFloat) }

end Throttle

end InertialRelay
