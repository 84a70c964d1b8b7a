import InertialRelay.Proofs.FrameConsistency

/-!
# Roll, pitch and yaw

`Quaternion.ofHalfAngles_unit_product`: the attitude of three angles is the turn by the yaw, then by the pitch
about the axis that this moved, then by the roll about the axis that both moved. It is a unit, and so are both
orientations that are published of it. As in `FrameConsistency` the numbers are those of any commutative ring; of
half an angle only the cosine and the sine are known.
-/

namespace InertialRelay

attribute [ext] Quaternion

namespace Quaternion
variable {R : Type} [CommRing R] (cr sr cp sp cy sy : R)

theorem normSq_mk (w x y z : R) : (⟨w, x, y, z⟩ : Quaternion R).normSq = w ^ 2 + x ^ 2 + y ^ 2 + z ^ 2 := by
  simp only [normSq]
  ring

/-- The factors turn about the axes that point down, to the right and forward. -/
theorem ofHalfAngles_eq_mul :
    ofHalfAngles cr sr cp sp cy sy = ((mk cy 0 0 sy).mul (mk cp 0 sp 0)).mul (mk cr sr 0 0) := by
  ext <;> simp only [ofHalfAngles, mul] <;> ring

theorem normSq_ofHalfAngles :
    (ofHalfAngles cr sr cp sp cy sy).normSq = (cy ^ 2 + sy ^ 2) * (cp ^ 2 + sp ^ 2) * (cr ^ 2 + sr ^ 2) := by
  rw [ofHalfAngles_eq_mul, normSq_mul, normSq_mul]
  simp only [normSq_mk]
  ring

theorem turn_ofHalfAngles (v : Vec3 R) :
    (ofHalfAngles cr sr cp sp cy sy).turn v =
      (mk cy 0 0 sy).turn ((mk cp 0 sp 0).turn ((mk cr sr 0 0).turn v)) := by
  rw [ofHalfAngles_eq_mul, turn_mul, turn_mul]

end Quaternion

namespace Frames
variable {R : Type} [CommRing R]

/-- Roll π and yaw π / 2; `s` is the cosine and the sine of π / 4. -/
theorem ofHalfAngles_toEnu (s : R) : Quaternion.ofHalfAngles 0 1 1 0 s s = idealToEnu s := by
  ext <;> simp [Quaternion.ofHalfAngles, idealToEnu]

/-- Roll π. -/
theorem ofHalfAngles_toBase : Quaternion.ofHalfAngles 0 1 1 0 1 0 = (idealToBase : Quaternion R) := by
  ext <;> simp [Quaternion.ofHalfAngles, idealToBase]

end Frames

namespace Quaternion
variable {R : Type} [CommRing R]

/-- Whatever stands for the cosines and sines, the attitude is the product of the three turns. Where they can
belong to angles it is a unit, turns vectors by the roll, the pitch and the yaw one after the other, and remains a
unit in the frames of the published records. -/
theorem ofHalfAngles_unit_product (cr sr cp sp cy sy : R) :
    ofHalfAngles cr sr cp sp cy sy = ((mk cy 0 0 sy).mul (mk cp 0 sp 0)).mul (mk cr sr 0 0) ∧
    (cr ^ 2 + sr ^ 2 = 1 → cp ^ 2 + sp ^ 2 = 1 → cy ^ 2 + sy ^ 2 = 1 →
      let q := ofHalfAngles cr sr cp sp cy sy
      q.w ^ 2 + q.x ^ 2 + q.y ^ 2 + q.z ^ 2 = 1 ∧
      (∀ v, q.toMatrix.mulVec v =
        (mk cy 0 0 sy).toMatrix.mulVec ((mk cp 0 sp 0).toMatrix.mulVec ((mk cr sr 0 0).toMatrix.mulVec v))) ∧
      ∀ s, 2 * s * s = 1 →
        (reframe (ofHalfAngles 0 1 1 0 s s) (ofHalfAngles 0 1 1 0 1 0) q).normSq = 1) := by
  refine ⟨ofHalfAngles_eq_mul cr sr cp sp cy sy, fun hr hp hy => ?_⟩
  intro q
  have hq : q.normSq = 1 := by
    rw [normSq_ofHalfAngles, hr, hp, hy]
    ring
  have hyaw : (mk cy 0 0 sy).normSq = 1 := by
    rw [normSq_mk]
    linear_combination hy
  have hpitch : (mk cp 0 sp 0).normSq = 1 := by
    rw [normSq_mk]
    linear_combination hp
  have hroll : (mk cr sr 0 0).normSq = 1 := by
    rw [normSq_mk]
    linear_combination hr
  refine ⟨(normSq_mk q.w q.x q.y q.z).symm.trans hq, fun v => ?_, fun s hs => ?_⟩
  · calc q.toMatrix.mulVec v
        = q.turn v := mulVec_toMatrix hq v
      _ = (mk cy 0 0 sy).turn ((mk cp 0 sp 0).turn ((mk cr sr 0 0).turn v)) :=
        turn_ofHalfAngles cr sr cp sp cy sy v
      _ = (mk cy 0 0 sy).toMatrix.mulVec
          ((mk cp 0 sp 0).toMatrix.mulVec ((mk cr sr 0 0).toMatrix.mulVec v)) := by
        rw [mulVec_toMatrix hyaw, mulVec_toMatrix hpitch, mulVec_toMatrix hroll]
  · rw [Frames.ofHalfAngles_toEnu, Frames.ofHalfAngles_toBase]
    exact Frames.normSq_reframe hs hq

/-- In the integers modulo 17, where `2 * 3 * 3 = 1`. -/
theorem ofHalfAngles_unit_product_mod_seventeen :
    let q : Quaternion (ZMod 17) := ofHalfAngles 4 6 3 3 6 4
    ((4 : ZMod 17) ^ 2 + 6 ^ 2 = 1 ∧ (3 : ZMod 17) ^ 2 + 3 ^ 2 = 1 ∧ (6 : ZMod 17) ^ 2 + 4 ^ 2 = 1) ∧
      q.w ^ 2 + q.x ^ 2 + q.y ^ 2 + q.z ^ 2 = 1 ∧
      (reframe (ofHalfAngles 0 1 1 0 3 3) (ofHalfAngles 0 1 1 0 1 0) q).normSq = 1 := by
  intro q
  have hr : (4 : ZMod 17) ^ 2 + 6 ^ 2 = 1 := by decide
  have hp : (3 : ZMod 17) ^ 2 + 3 ^ 2 = 1 := by decide
  have hy : (6 : ZMod 17) ^ 2 + 4 ^ 2 = 1 := by decide
  obtain ⟨hunit, -, hpublished⟩ := (ofHalfAngles_unit_product (4 : ZMod 17) 6 3 3 6 4).2 hr hp hy
  exact ⟨⟨hr, hp, hy⟩, hunit, hpublished 3 (by decide)⟩

end Quaternion
end InertialRelay
