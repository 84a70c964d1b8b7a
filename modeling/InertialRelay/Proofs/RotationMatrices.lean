import InertialRelay.Proofs.EulerAngles
import Mathlib.LinearAlgebra.Matrix.Notation

/-!
# Rotation matrices

`Quaternion.matrices_multiply`: one orientation after another has the product of their matrices, and the matrix of
a unit quaternion is inverted by its transpose. The numbers are those of any commutative ring, as in
`FrameConsistency`, and products and transposes are those of `Matrix`, which `Matrix3.entries` leads to.

No product of two matrices is multiplied out. A unit quaternion turns vectors as its matrix does
(`Quaternion.mulVec_toMatrix`) and turns compose, so the two sides do the same to every vector. The transpose is
the matrix of the conjugate, for any quaternion, and a unit times its conjugate is the identity.
-/

namespace InertialRelay

open scoped Matrix

namespace Vec3
variable {R : Type}

def coords (v : Vec3 R) : Fin 3 → R := ![v.x, v.y, v.z]

theorem exists_coords (u : Fin 3 → R) : ∃ v : Vec3 R, v.coords = u :=
  ⟨⟨u 0, u 1, u 2⟩, by ext i; fin_cases i <;> rfl⟩

end Vec3

namespace Matrix3
variable {R : Type}

def entries (m : Matrix3 R) : Matrix (Fin 3) (Fin 3) R := .of ![m.row₁.coords, m.row₂.coords, m.row₃.coords]

variable [CommRing R]

theorem dot_eq_dotProduct (r v : Vec3 R) : dot r v = r.coords ⬝ᵥ v.coords := by
  simp [dot, Vec3.coords, add_assoc]

theorem entries_mulVec (m : Matrix3 R) (v : Vec3 R) : m.entries *ᵥ v.coords = (m.mulVec v).coords := by
  ext i
  fin_cases i <;> exact (dot_eq_dotProduct _ v).symm

end Matrix3

namespace Quaternion
variable {R : Type} [CommRing R] {a b q : Quaternion R}

protected theorem mul_assoc (a b c : Quaternion R) : (a.mul b).mul c = a.mul (b.mul c) := by
  ext <;> simp only [mul] <;> ring

theorem normSq_conj (q : Quaternion R) : q.conj.normSq = q.normSq := by
  simp only [normSq, conj]
  ring

theorem mul_conj (q : Quaternion R) : q.mul q.conj = ⟨q.normSq, 0, 0, 0⟩ := by
  ext <;> simp only [mul, conj, normSq] <;> ring

/-! ### The matrix of a product, of a conjugate and of the identity -/

theorem entries_toMatrix_mul (ha : a.normSq = 1) (hb : b.normSq = 1) :
    (a.mul b).toMatrix.entries = a.toMatrix.entries * b.toMatrix.entries := by
  have hab : (a.mul b).normSq = 1 := by rw [normSq_mul, ha, hb, mul_one]
  -- the norms matter only where a matrix is traded for the turn; turns compose without them
  refine Matrix.ext_iff_mulVec.2 fun u => ?_
  obtain ⟨v, rfl⟩ := Vec3.exists_coords u
  calc (a.mul b).toMatrix.entries *ᵥ v.coords
      = ((a.mul b).turn v).coords := by rw [Matrix3.entries_mulVec, mulVec_toMatrix hab]
    _ = (a.turn (b.turn v)).coords := by rw [turn_mul]
    _ = a.toMatrix.entries *ᵥ b.toMatrix.entries *ᵥ v.coords := by
      rw [Matrix3.entries_mulVec, Matrix3.entries_mulVec, mulVec_toMatrix ha, mulVec_toMatrix hb]
    _ = (a.toMatrix.entries * b.toMatrix.entries) *ᵥ v.coords := Matrix.mulVec_mulVec ..

theorem entries_toMatrix_conj (q : Quaternion R) : q.conj.toMatrix.entries = q.toMatrix.entriesᵀ := by
  ext i j
  fin_cases i <;> fin_cases j <;> simp [Matrix3.entries, Vec3.coords, toMatrix, conj] <;> ring

theorem entries_toMatrix_one : (mk 1 0 0 0 : Quaternion R).toMatrix.entries = 1 := by
  simp [Matrix3.entries, Vec3.coords, toMatrix, Matrix.one_fin_three]

theorem entries_toMatrix_mul_transpose (h : q.normSq = 1) : q.toMatrix.entries * q.toMatrix.entriesᵀ = 1 := by
  have hconj : q.conj.normSq = 1 := (normSq_conj q).trans h
  rw [← entries_toMatrix_conj, ← entries_toMatrix_mul h hconj, mul_conj, h, entries_toMatrix_one]

/-- The product is associative and norms multiply, for all quaternions. For units the matrix of the product is the
product of the matrices, and the matrix of one is inverted by its transpose and turns vectors as it does itself. -/
theorem matrices_multiply (a b c : Quaternion R) :
    (a.mul b).mul c = a.mul (b.mul c) ∧
    (a.mul b).normSq = a.normSq * b.normSq ∧
    (a.normSq = 1 → b.normSq = 1 →
      (a.mul b).toMatrix.entries = a.toMatrix.entries * b.toMatrix.entries) ∧
    (a.normSq = 1 →
      a.toMatrix.entries * a.toMatrix.entriesᵀ = 1 ∧ ∀ v, a.toMatrix.mulVec v = a.turn v) := by
  refine ⟨Quaternion.mul_assoc a b c, normSq_mul a b, entries_toMatrix_mul, fun ha => ⟨?_, ?_⟩⟩
  · exact entries_toMatrix_mul_transpose ha
  · exact mulVec_toMatrix ha

/-- In the integers modulo 7, two units that do not commute. -/
theorem matrices_multiply_mod_seven :
    let a : Quaternion (ZMod 7) := ⟨1, 1, 2, 3⟩
    let b : Quaternion (ZMod 7) := ⟨3, 1, 2, 1⟩
    a.normSq = 1 ∧ b.normSq = 1 ∧ (a.mul b).toMatrix ≠ (b.mul a).toMatrix ∧
      (a.mul b).toMatrix.entries = a.toMatrix.entries * b.toMatrix.entries ∧
      a.toMatrix.entries * a.toMatrix.entriesᵀ = 1 := by
  intro a b
  have ha : a.normSq = 1 := by decide
  have hb : b.normSq = 1 := by decide
  obtain ⟨-, -, hmul, hinv⟩ := matrices_multiply a b ⟨0, 1, 0, 0⟩
  exact ⟨ha, hb, by decide, hmul ha hb, (hinv ha).1⟩

end Quaternion
end InertialRelay
