import InertialRelay.Fault
import InertialRelay.Log.Entry

/-!
# Reactions

What a call to the outside of a component comes to: a new state out there, lines in the log, and
perhaps a fault. The state counts even where there is a fault.
-/

namespace InertialRelay

structure Reaction (σ : Type) where
  state : σ
  log : Log := []
  fault : Option Fault := none
  deriving Repr, DecidableEq

namespace Reaction

variable {σ : Type} {α : Type}

/-- Calls on one state after the other until one of them fails. -/
def untilFault (act : α → σ → Reaction σ) : List α → σ → Reaction σ
  | [], s => ⟨s, [], none⟩
  | a :: rest, s =>
    let r := act a s
    match r.fault with
    | some f => ⟨r.state, r.log, some f⟩
    | none =>
      let r' := untilFault act rest r.state
      ⟨r'.state, r.log ++ r'.log, r'.fault⟩

end Reaction

end InertialRelay
