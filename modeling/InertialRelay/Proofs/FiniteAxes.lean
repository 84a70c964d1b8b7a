import InertialRelay.Frames.Rotation
import InertialRelay.Proofs.Magnitudes

/-!
# Finite axes of a turned vector

The turn from the aircraft to the base frame is meant to flip signs and to leave each axis alone. Computed as a product
with a full matrix it adds every axis to every other, times a number close to zero, and no number takes a NaN or an
infinity away. `Frames.vectorToBase_finite_iff`: an axis of at most `1e300` comes out finite exactly if both other axes
are finite.
-/

namespace InertialRelay

open Binary64

inductive Axis where
  | x
  | y
  | z
  deriving DecidableEq

namespace Vec3
variable {α : Type}

def along (v : Vec3 α) : Axis → α
  | .x => v.x
  | .y => v.y
  | .z => v.z

end Vec3

namespace Matrix3

def row {α : Type} (m : Matrix3 α) : Axis → Vec3 α
  | .x => m.row₁
  | .y => m.row₂
  | .z => m.row₃

theorem along_mulVec {α : Type} [OfNat α 0] [Add α] [Mul α] (m : Matrix3 α) (v : Vec3 α) (i : Axis) :
    (m.mulVec v).along i = dot (m.row i) v := by
  cases i <;> rfl

variable {r v : Vec3 Float} {k : ℤ}

/-- Nothing that is not finite is lost in a sum of products. -/
theorem isFinite_along_of_dot (h : (dot r v).isFinite = true) (j : Axis) : (v.along j).isFinite = true := by
  obtain ⟨hxy, hz⟩ := isFinite_of_add h
  obtain ⟨hx, hy⟩ := isFinite_of_add hxy
  obtain ⟨-, hx⟩ := isFinite_of_add hx
  cases j with
  | x => exact (isFinite_of_mul hx).2
  | y => exact (isFinite_of_mul hy).2
  | z => exact (isFinite_of_mul hz).2

theorem isFinite_dot (h : ∀ j, Within k (unpack (r.along j * v.along j))) (hlow : -1074 ≤ k)
    (hmax : k + 6 ≤ maxExponent) : (dot r v).isFinite = true := by
  have hzero : Within k (unpack 0) := by
    rw [show unpack 0 = .zero .positive from rfl]
    trivial
  have hx := within_add hzero (h .x) hlow (by omega)
  have hxy := within_add hx ((h .y).mono (by omega)) (by omega) (by omega)
  have hxyz := within_add hxy ((h .z).mono (by omega)) (by omega) (by omega)
  exact hxyz.isFinite

end Matrix3

namespace Frames

/-- The diagonal holds one, up to its sign, and nothing else is larger than `2 ^ (-52)`. -/
theorem within_entry (i j : Axis) :
    Within (if i = j then -52 else -105) (unpack ((aircraftToBaseMatrix.row i).along j)) := by
  cases i <;> cases j <;> decide +kernel

theorem within_limit {x : Float} (h : x.abs ≤ 1e300) : Within 944 (unpack x) := by
  refine within_of_abs_le h ?_
  decide +kernel

theorem within_product {v : Vec3 Float} {i j : Axis} (hi : (v.along i).abs ≤ 1e300)
    (hj : j ≠ i → (v.along j).isFinite = true) :
    Within 946 (unpack ((aircraftToBaseMatrix.row i).along j * v.along j)) := by
  have hentry := within_entry i j
  by_cases hij : i = j
  · subst hij
    rw [if_pos rfl] at hentry
    exact within_mul hentry (within_limit hi) (by norm_num) (by norm_num) (by decide)
  · rw [if_neg hij] at hentry
    have hfinite := within_of_isFinite (hj (Ne.symm hij))
    exact within_mul hentry hfinite (by decide) (by norm_num) (by decide)

theorem vectorToBase_finite_iff (v : Vec3 Float) (i : Axis) (hi : (v.along i).abs ≤ 1e300) :
    ((vectorToBase v).along i).isFinite = true ↔ ∀ j, j ≠ i → (v.along j).isFinite = true := by
  unfold vectorToBase
  rw [Matrix3.along_mulVec]
  constructor
  · intro h j _
    exact Matrix3.isFinite_along_of_dot h j
  · intro h
    exact Matrix3.isFinite_dot (fun j => within_product hi (h j)) (by norm_num) (by decide)

/-- The largest values on the other two axes. -/
theorem vectorToBase_finite_largest :
    let v : Vec3 Float := ⟨.ofBits 0x7fefffffffffffff, 1e300, .ofBits 0xffefffffffffffff⟩
    (v.along .y).abs ≤ 1e300 ∧ ((vectorToBase v).along .y).isFinite = true := by
  intro v
  have hlimit : (v.along .y).abs ≤ 1e300 := by decide +kernel
  have hothers : ∀ j, j ≠ Axis.y → (v.along j).isFinite = true := by
    intro j hj
    cases j with
    | x => decide +kernel
    | y => exact absurd rfl hj
    | z => decide +kernel
  exact ⟨hlimit, (vectorToBase_finite_iff v .y hlimit).2 hothers⟩

/-- A NaN that points forward turns up on the axis that points sideways. -/
theorem vectorToBase_nan_spreads :
    let v : Vec3 Float := ⟨.ofBits 0x7ff8000000000000, 1, 0⟩
    (v.along .y).abs ≤ 1e300 ∧ ((vectorToBase v).along .y).isFinite = false := by
  decide +kernel

end Frames

end InertialRelay
