import InertialRelay.Frames.Rotation
import Mathlib.Data.ZMod.Basic
import Mathlib.Tactic.LinearCombination
import Mathlib.Tactic.Ring

/-!
# Orientations and vectors in one frame

`Frames.orientation_turns_vector`: turning a vector of the base frame by the orientation of the base frame gives
the east-north-up components of what turning the aircraft vector by the reported orientation gives. This is
about exact numbers, any commutative ring with an `s` such that `2 * s * s = 1`, and about the rotations
between the frames that `Frames.nedToEnu` and `Frames.aircraftToBase` round.

A unit quaternion turns vectors as its matrix does, by the product `q v q⁻¹` (`Quaternion.turn`). That product
composes for all quaternions, unit or not, while matrices do so only for unit ones.
-/

namespace InertialRelay

attribute [ext] Vec3

namespace Quaternion
variable {R : Type} [CommRing R] {q : Quaternion R}

def normSq (q : Quaternion R) : R := q.w * q.w + q.x * q.x + q.y * q.y + q.z * q.z

def conj (q : Quaternion R) : Quaternion R := ⟨q.w, -q.x, -q.y, -q.z⟩

def ofVec (v : Vec3 R) : Quaternion R := ⟨0, v.x, v.y, v.z⟩

def vec (q : Quaternion R) : Vec3 R := ⟨q.x, q.y, q.z⟩

/-- The vector part of `q v q*`. -/
def turn (q : Quaternion R) (v : Vec3 R) : Vec3 R := ((q.mul (ofVec v)).mul q.conj).vec

theorem normSq_mul (a b : Quaternion R) : (a.mul b).normSq = a.normSq * b.normSq := by
  simp only [normSq, mul]
  ring

theorem turn_mul (a b : Quaternion R) (v : Vec3 R) : (a.mul b).turn v = a.turn (b.turn v) := by
  ext <;> simp only [turn, vec, conj, ofVec, mul] <;> ring

/-- A matrix on its diagonal holds `1 - normSq q` more than what `turn` does. -/
theorem mulVec_toMatrix (h : q.normSq = 1) (v : Vec3 R) : q.toMatrix.mulVec v = q.turn v := by
  unfold normSq at h
  ext <;> simp only [toMatrix, Matrix3.mulVec, Matrix3.dot, turn, vec, conj, ofVec, mul]
  · linear_combination -v.x * h
  · linear_combination -v.y * h
  · linear_combination -v.z * h

end Quaternion

namespace Frames
variable {R : Type} [CommRing R] {s : R}

/-- Half a turn about the horizontal line between north and east; `s` is the sine of 45 degrees. -/
def idealToEnu (s : R) : Quaternion R := ⟨0, s, s, 0⟩

/-- Half a turn about the axis that points forward. -/
def idealToBase : Quaternion R := ⟨0, 1, 0, 0⟩

theorem normSq_idealToEnu (h : 2 * s * s = 1) : (idealToEnu s).normSq = 1 := by
  simp only [Quaternion.normSq, idealToEnu]
  linear_combination h

theorem normSq_idealToBase : (idealToBase : Quaternion R).normSq = 1 := by
  simp only [Quaternion.normSq, idealToBase]
  ring

theorem turn_idealToEnu (h : 2 * s * s = 1) (u : Vec3 R) : (idealToEnu s).turn u = ⟨u.y, u.x, -u.z⟩ := by
  ext <;> simp only [idealToEnu, Quaternion.turn, Quaternion.vec, Quaternion.conj, Quaternion.ofVec,
    Quaternion.mul]
  · linear_combination u.y * h
  · linear_combination u.x * h
  · linear_combination -u.z * h

theorem turn_idealToBase (v : Vec3 R) : idealToBase.turn v = ⟨v.x, -v.y, -v.z⟩ := by
  ext <;> simp only [idealToBase, Quaternion.turn, Quaternion.vec, Quaternion.conj, Quaternion.ofVec,
    Quaternion.mul] <;> ring

theorem turn_turn_idealToBase (v : Vec3 R) : idealToBase.turn (idealToBase.turn v) = v := by
  simp [turn_idealToBase]

theorem normSq_reframe (h : 2 * s * s = 1) {q : Quaternion R} (hq : q.normSq = 1) :
    (Quaternion.reframe (idealToEnu s) idealToBase q).normSq = 1 := by
  simp [Quaternion.reframe, Quaternion.normSq_mul, normSq_idealToEnu h, normSq_idealToBase, hq]

theorem orientation_turns_vector (h : 2 * s * s = 1) {q : Quaternion R} (hq : q.normSq = 1) (v : Vec3 R) :
    let enu := Quaternion.reframe (idealToEnu s) idealToBase q
    let u := q.toMatrix.mulVec v
    enu.toMatrix.mulVec (idealToBase.toMatrix.mulVec v) = ⟨u.y, u.x, -u.z⟩ := by
  intro enu u
  calc enu.toMatrix.mulVec (idealToBase.toMatrix.mulVec v)
      = enu.turn (idealToBase.turn v) := by
        rw [Quaternion.mulVec_toMatrix (normSq_reframe h hq), Quaternion.mulVec_toMatrix normSq_idealToBase]
    _ = (idealToEnu s).turn (q.turn (idealToBase.turn (idealToBase.turn v))) := by
        simp only [enu, Quaternion.reframe, Quaternion.turn_mul]
    _ = (idealToEnu s).turn u := by
        rw [turn_turn_idealToBase, ← Quaternion.mulVec_toMatrix hq]
    _ = ⟨u.y, u.x, -u.z⟩ := turn_idealToEnu h u

/-- In the integers modulo 7, where `2 * 2 * 2 = 1`. -/
theorem orientation_turns_vector_mod_seven :
    let q : Quaternion (ZMod 7) := ⟨1, 1, 2, 3⟩
    let v : Vec3 (ZMod 7) := ⟨1, 2, 4⟩
    let enu := Quaternion.reframe (idealToEnu 2) idealToBase q
    let u := q.toMatrix.mulVec v
    (2 * 2 * 2 : ZMod 7) = 1 ∧ q.normSq = 1 ∧ u.x ≠ u.y ∧
      enu.toMatrix.mulVec (idealToBase.toMatrix.mulVec v) = ⟨u.y, u.x, -u.z⟩ := by
  intro q v enu u
  have hs : (2 * 2 * 2 : ZMod 7) = 1 := by decide
  have hq : q.normSq = 1 := by decide
  exact ⟨hs, hq, by decide, orientation_turns_vector hs hq v⟩

end Frames
end InertialRelay
