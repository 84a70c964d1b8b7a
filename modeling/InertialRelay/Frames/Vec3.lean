/-!
# Vectors with three components
-/

namespace InertialRelay

structure Vec3 (α : Type) where
  x : α
  y : α
  z : α
  deriving Repr, DecidableEq

namespace Vec3

variable {α β : Type}

def map (f : α → β) (v : Vec3 α) : Vec3 β := ⟨f v.x, f v.y, f v.z⟩

/-- Applies a step that may fail to the components in the order x, y, z. -/
def mapM {m : Type → Type} [Monad m] (f : α → m β) (v : Vec3 α) : m (Vec3 β) := do
  let x ← f v.x
  let y ← f v.y
  let z ← f v.z
  return ⟨x, y, z⟩

/-- Every component times `c`. -/
def scale [Mul α] (v : Vec3 α) (c : α) : Vec3 α := v.map (· * c)

def toList (v : Vec3 α) : List α := [v.x, v.y, v.z]

def zero [OfNat α 0] : Vec3 α := ⟨0, 0, 0⟩

end Vec3

end InertialRelay
