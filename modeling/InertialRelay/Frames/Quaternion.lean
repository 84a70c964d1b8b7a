import InertialRelay.Frames.Vec3

/-!
# Quaternions and rotation matrices

Products and conversions over any type with addition, subtraction and multiplication. The order in
which the terms of a sum are added is part of every definition: over binary64 another order would
round differently.
-/

namespace InertialRelay

/-- An orientation `w + x i + y j + z k`. -/
structure Quaternion (α : Type) where
  w : α
  x : α
  y : α
  z : α
  deriving Repr, DecidableEq

/-- A 3 by 3 matrix by rows. -/
structure Matrix3 (α : Type) where
  row₁ : Vec3 α
  row₂ : Vec3 α
  row₃ : Vec3 α
  deriving Repr, DecidableEq

namespace Matrix3

variable {α : Type}

def rows (m : Matrix3 α) : List (Vec3 α) := [m.row₁, m.row₂, m.row₃]

/-- A row times a vector, summed from zero and from the left. -/
def dot [OfNat α 0] [Add α] [Mul α] (r v : Vec3 α) : α :=
  0 + r.x * v.x + r.y * v.y + r.z * v.z

def mulVec [OfNat α 0] [Add α] [Mul α] (m : Matrix3 α) (v : Vec3 α) : Vec3 α :=
  ⟨dot m.row₁ v, dot m.row₂ v, dot m.row₃ v⟩

end Matrix3

namespace Quaternion

variable {α β : Type}

def toList (q : Quaternion α) : List α := [q.w, q.x, q.y, q.z]

/-- Applies a step that may fail to the components in the order w, x, y, z. -/
def mapM {m : Type → Type} [Monad m] (f : α → m β) (q : Quaternion α) : m (Quaternion β) := do
  let w ← f q.w
  let x ← f q.x
  let y ← f q.y
  let z ← f q.z
  return ⟨w, x, y, z⟩

variable [Add α] [Sub α] [Mul α]

/-- The Hamilton product. -/
def mul (a b : Quaternion α) : Quaternion α where
  w := a.w * b.w - a.x * b.x - a.y * b.y - a.z * b.z
  x := a.w * b.x + a.x * b.w + a.y * b.z - a.z * b.y
  y := a.w * b.y - a.x * b.z + a.y * b.w + a.z * b.x
  z := a.w * b.z + a.x * b.y - a.y * b.x + a.z * b.w

/-- The matrix that turns a vector as the unit quaternion `q` does. -/
def toMatrix [OfNat α 1] [OfNat α 2] (q : Quaternion α) : Matrix3 α where
  row₁ := ⟨1 - 2 * (q.y * q.y + q.z * q.z), 2 * (q.x * q.y - q.w * q.z),
    2 * (q.x * q.z + q.w * q.y)⟩
  row₂ := ⟨2 * (q.x * q.y + q.w * q.z), 1 - 2 * (q.x * q.x + q.z * q.z),
    2 * (q.y * q.z - q.w * q.x)⟩
  row₃ := ⟨2 * (q.x * q.z - q.w * q.y), 2 * (q.y * q.z + q.w * q.x),
    1 - 2 * (q.x * q.x + q.y * q.y)⟩

/-- The rotation by roll, then pitch, then yaw about fixed axes, from the cosine and sine of half
of each angle. -/
def ofHalfAngles (cr sr cp sp cy sy : α) : Quaternion α where
  w := cr * cp * cy + sr * sp * sy
  x := sr * cp * cy - cr * sp * sy
  y := cr * sp * cy + sr * cp * sy
  z := cr * cp * sy - sr * sp * cy

/-- The orientation `q` seen from another world frame and for another body frame. The world is
changed first; the two changes do not commute. -/
def reframe (world body q : Quaternion α) : Quaternion α :=
  (world.mul q).mul body

end Quaternion

end InertialRelay
