import InertialRelay.Covariance
import InertialRelay.Proofs.Overflow

/-!
# Squares that are too large

`squarable_iff`: the square of a value is beyond the range of binary64 exactly if the value is finite and
`2 ^ 512` or more in size. No other value comes close to the limit. The largest one below `2 ^ 512` has the
square `2 ^ 1024 - 2 ^ 972 + 2 ^ 918`, and the numbers that round to infinity start at `2 ^ 1024 - 2 ^ 970`.
-/

namespace InertialRelay

namespace Binary64

open Float.Model Float.Model.UnpackedFloat

/-- The number that a value stands for, if it is finite. -/
def toRat? (x : Float) : Option ℚ :=
  match unpack x with
  | .notANumber | .infinity _ => none
  | .zero _ => some 0
  | .finite s m e _ => some (signed s m * 2 ^ e)

theorem isFinite_eq (x : Float) : x.isFinite = (toRat? x).isSome := by
  show (unpack x).isFinite = _
  unfold toRat?
  cases unpack x <;> rfl

section
variable {s : Sign} {m n : ℕ} {e t : ℤ} {hm : 0 < m}

/-- The size of a value is told by its exponent, save at the bottom of the range. -/
theorem lt_two_zpow_iff (hc : Canonical m e) (ht : -1074 ≤ t) : (m : ℚ) * 2 ^ e < 2 ^ (t + 53) ↔ e ≤ t := by
  have hpow : (0 : ℚ) < 2 ^ e := by positivity
  rw [two_zpow_add]
  constructor
  · intro h
    by_contra hlarge
    have hm : (2 ^ 52 : ℚ) ≤ m := by exact_mod_cast hc.normal (by omega)
    have he : (2 : ℚ) ^ (t + 1) ≤ 2 ^ e := zpow_le_zpow_right₀ one_le_two (by omega)
    have hprod : (2 ^ 52 : ℚ) * 2 ^ (t + 1) ≤ m * 2 ^ e := mul_le_mul hm he (by positivity) (by positivity)
    rw [zpow_add_one₀ two_ne_zero] at hprod
    linarith
  · intro h
    have hlt : (m : ℚ) < 2 ^ 53 := by exact_mod_cast hc.lt
    have he : (2 : ℚ) ^ e ≤ 2 ^ t := zpow_le_zpow_right₀ one_le_two h
    calc (m : ℚ) * 2 ^ e < 2 ^ 53 * 2 ^ e := mul_lt_mul_of_pos_right hlt hpow
      _ ≤ 2 ^ 53 * 2 ^ t := mul_le_mul_of_nonneg_left he (by positivity)

theorem le_log2_square (hc : Canonical m e) (he : -1074 < e) : 104 ≤ (m * m).log2 := by
  refine (Nat.le_log2 (Nat.mul_ne_zero hc.pos.ne' hc.pos.ne')).2 ?_
  calc 2 ^ 104 = 2 ^ 52 * 2 ^ 52 := by norm_num
    _ ≤ m * m := Nat.mul_le_mul (hc.normal he) (hc.normal he)

theorem midpoint_le_square (hc : Canonical m e) (he : 460 ≤ e) :
    (2 ^ 1024 - 2 ^ 970 : ℚ) ≤ (m * m : ℕ) * 2 ^ (e + e) := by
  have hm : (2 ^ 52 : ℚ) ≤ m := by exact_mod_cast hc.normal (by omega)
  have hpow : (2 : ℚ) ^ ((971 : ℤ) + (-51)) ≤ 2 ^ (e + e) := zpow_le_zpow_right₀ one_le_two (by omega)
  rw [zpow_add₀ two_ne_zero] at hpow
  rw [midpoint_eq, Nat.cast_mul]
  calc (2 ^ 53 - 1 / 2 : ℚ) * 2 ^ (971 : ℤ) ≤ 2 ^ 52 * 2 ^ 52 * 2 ^ (-51 : ℤ) * 2 ^ (971 : ℤ) :=
        mul_le_mul_of_nonneg_right (by norm_num) (by positivity)
    _ = 2 ^ 52 * 2 ^ 52 * (2 ^ (971 : ℤ) * 2 ^ (-51 : ℤ)) := by
        rw [mul_comm ((2 : ℚ) ^ (971 : ℤ)), ← mul_assoc]
    _ ≤ m * m * 2 ^ (e + e) :=
        mul_le_mul (mul_le_mul hm hm (by positivity) (by positivity)) hpow (by positivity) (by positivity)

theorem square_lt_midpoint (hc : Canonical m e) (he : e ≤ 459) :
    ((m * m : ℕ) * 2 ^ (e + e) : ℚ) < 2 ^ 1024 - 2 ^ 970 := by
  have hm : (m : ℚ) ≤ 2 ^ 53 - 1 := by
    rw [le_sub_iff_add_le]
    exact_mod_cast hc.lt
  have hpow : (2 : ℚ) ^ (e + e) ≤ 2 ^ ((971 : ℤ) + (-53)) := zpow_le_zpow_right₀ one_le_two (by omega)
  rw [zpow_add₀ two_ne_zero 971] at hpow
  rw [midpoint_eq, Nat.cast_mul]
  calc (m * m * 2 ^ (e + e) : ℚ) ≤ (2 ^ 53 - 1) * (2 ^ 53 - 1) * (2 ^ (971 : ℤ) * 2 ^ (-53 : ℤ)) :=
        mul_le_mul (mul_le_mul hm hm (by positivity) (by norm_num)) hpow (by positivity) (by norm_num)
    _ = (2 ^ 53 - 1) * (2 ^ 53 - 1) * 2 ^ (-53 : ℤ) * 2 ^ (971 : ℤ) := by
        rw [mul_comm ((2 : ℚ) ^ (971 : ℤ)), ← mul_assoc]
    _ < (2 ^ 53 - 1 / 2) * 2 ^ (971 : ℤ) := mul_lt_mul_of_pos_right (by norm_num) (by positivity)

theorem isInf_pack_square_iff (hc : Canonical m e) :
    (Float.Model.pack (roundWithAccuracy Format.binary64 s (m * m) (e + e) .exact)).unpack.isInf = true ↔
      460 ≤ e := by
  have hv : Covers (.ofMantissaAndAccuracy (m * m) .exact) (m * m : ℕ) := rfl
  have het : e + e ≤ Format.binary64.targetExponent (totalExponent (m * m) (e + e)) := by
    have hge := hc.ge
    have hlog := le_log2_square hc
    rw [targetExponent_eq, totalExponent]
    omega
  rw [isInf_round_iff het hv]
  refine ⟨fun h => ?_, midpoint_le_square hc⟩
  by_contra he
  exact absurd (square_lt_midpoint hc (by omega)) (not_lt_of_ge h)

end

/-- Whether a value is less than `2 ^ 512` in size, unless it is not finite. -/
def Squarable (x : Float) : Prop := ∀ v ∈ toRat? x, |v| < 2 ^ 512

theorem abs_signed (s : Sign) (m : ℕ) (e : ℤ) : |(signed s m : ℚ) * 2 ^ e| = m * 2 ^ e := by
  have hpow : (0 : ℚ) < 2 ^ e := by positivity
  rw [abs_mul, abs_of_pos hpow]
  cases s <;> simp [signed]

theorem squarable_of_finite {x : Float} {s : Sign} {m : ℕ} {e : ℤ} {hm : 0 < m}
    (h : unpack x = .finite s m e hm) :
    Squarable x ↔ e ≤ 459 := by
  have hlimit : (2 : ℚ) ^ 512 = 2 ^ ((459 : ℤ) + 53) := (zpow_ofNat 2 512).symm
  obtain ⟨hc, -⟩ := canonical_of_unpack h
  rw [← lt_two_zpow_iff hc (by norm_num), ← hlimit, ← abs_signed s]
  simp [Squarable, toRat?, h]

theorem squarable_iff (x : Float) : Squarable x ↔ ¬((x * x).isInf = true ∧ x.isFinite = true) := by
  show _ ↔ ¬((Float.Model.pack (UnpackedFloat.mul Format.binary64 (unpack x) (unpack x))).unpack.isInf = true ∧
    (unpack x).isFinite = true)
  cases h : unpack x with
  | infinity s => simp [Squarable, toRat?, h, UnpackedFloat.isFinite]
  | notANumber => simp [Squarable, toRat?, h, UnpackedFloat.isFinite]
  | zero s =>
    have hzero :
        (Float.Model.pack (UnpackedFloat.mul Format.binary64 (.zero s) (.zero s))).unpack.isInf = false := by
      cases s <;> rfl
    simp [Squarable, toRat?, h, hzero]
  | finite s m e hm =>
    obtain ⟨hc, -⟩ := canonical_of_unpack h
    rw [squarable_of_finite h]
    constructor
    · rintro he ⟨hinf, -⟩
      have := (isInf_pack_square_iff hc).1 hinf
      omega
    · intro hfin
      by_contra he
      exact hfin ⟨(isInf_pack_square_iff hc).2 (by omega), rfl⟩

end Binary64

namespace Covariance

theorem square_of_squarable {x : Float} (h : Binary64.Squarable x) : square x = .ok (x.pow 2) := by
  have hfin := (Binary64.squarable_iff x).1 h
  rw [← Bool.and_eq_true] at hfin
  exact if_neg hfin

theorem square_of_not_squarable {x : Float} (h : ¬Binary64.Squarable x) :
    square x = .error .squareTooLarge := by
  rw [Binary64.squarable_iff, not_not, ← Bool.and_eq_true] at h
  exact if_pos h

end Covariance

end InertialRelay
