import InertialRelay.Binary64.Exact
import Mathlib.Algebra.Order.Ring.Nat
import Mathlib.Tactic.Set

/-!
# Half of a value

`Binary64.isInf_half`: half of a binary64 value is infinite exactly if the value is. A finite value has an
exponent of at most 971. Rounding raises the exponent that a mantissa asks for by one at most
(`exponent_roundWithAccuracy`), and a half asks for one less than the whole.
-/

namespace InertialRelay.Binary64

open Float.Model Float.Model.UnpackedFloat

/-- The exponent of the largest finite value. -/
def maxExponent : Int := 971

theorem targetExponent_eq (t : Int) : Format.binary64.targetExponent t = max (t - 53) (-1074) := rfl

/-! ### The exponent that rounding leaves -/

theorem mantissa_shiftRight (m : ExtendedMantissa) (k : Nat) :
    (m >>> k).mantissa = m.mantissa / 2 ^ k := by
  induction k with
  | zero => exact (Nat.div_one _).symm
  | succ k ih =>
    show (m >>> k).mantissa / 2 = _
    rw [ih, Nat.div_div_eq_div_mul, Nat.pow_succ]

theorem roundedMantissa_le (m : ExtendedMantissa) : m.roundedMantissa ≤ m.mantissa + 1 := by
  rcases m with ⟨m, roundBit, stickyBit⟩
  cases roundBit <;> cases stickyBit <;> simp only [ExtendedMantissa.roundedMantissa,
    ExtendedMantissa.accuracy, Accuracy.roundToNearestEven] <;> omega

theorem log2_le_of_lt {m k : Nat} (h : m < 2 ^ (k + 1)) : m.log2 ≤ k := by
  by_cases hm : m = 0
  · simp [hm]
  · exact Nat.le_of_lt_succ ((Nat.log2_lt hm).2 h)

section
variable {s s' : Sign} {m m' : Nat} {e e' : Int} {a : Accuracy} {hm : 0 < m} {hm' : 0 < m'}

theorem shiftToTargetExponent_snd (m : Nat) (e : Int) (a : Accuracy) :
    (shiftToTargetExponent Format.binary64 m e a).2 =
      max e (Format.binary64.targetExponent (totalExponent m e)) := by
  simp only [shiftToTargetExponent, shiftToExponent]
  omega

theorem shiftToTargetExponent_mantissa (m : Nat) (e : Int) (a : Accuracy) :
    (shiftToTargetExponent Format.binary64 m e a).1.mantissa =
      m / 2 ^ (Format.binary64.targetExponent (totalExponent m e) - e).toNat := by
  simp only [shiftToTargetExponent, shiftToExponent, mantissa_shiftRight]
  rcases a with - | (- | - | -) <;> rfl

/-- A mantissa that was shifted to its place and rounded asks for one exponent more at most. -/
theorem totalExponent_rounded (m : Nat) (e : Int) (a : Accuracy) :
    Format.binary64.targetExponent (totalExponent
        (shiftToTargetExponent Format.binary64 m e a).1.roundedMantissa
        (shiftToTargetExponent Format.binary64 m e a).2) ≤
      max e (Format.binary64.targetExponent (totalExponent m e) + 1) := by
  have hr := roundedMantissa_le (shiftToTargetExponent Format.binary64 m e a).1
  rw [shiftToTargetExponent_snd]
  rw [shiftToTargetExponent_mantissa] at hr
  generalize (shiftToTargetExponent Format.binary64 m e a).1.roundedMantissa = r at hr ⊢
  set k := (Format.binary64.targetExponent (totalExponent m e) - e).toNat with hk
  have hlt : m / 2 ^ k < 2 ^ (m.log2 - k + 1) := by
    rw [Nat.div_lt_iff_lt_mul (Nat.two_pow_pos k), ← Nat.pow_add]
    exact Nat.lt_of_lt_of_le Nat.lt_log2_self (Nat.pow_le_pow_right Nat.two_pos (by omega))
  have hlog : r.log2 ≤ m.log2 - k + 1 := by
    refine log2_le_of_lt ?_
    have hp := Nat.two_pow_pos (m.log2 - k + 1)
    rw [Nat.pow_succ]
    omega
  simp only [targetExponent_eq, totalExponent] at hk ⊢
  omega

theorem exponent_roundWithAccuracy
    (h : roundWithAccuracy Format.binary64 s m e a = .finite s' m' e' hm') :
    e' ≤ max e (Format.binary64.targetExponent (totalExponent m e) + 1) := by
  unfold roundWithAccuracy at h
  dsimp only at h
  rcases dite_eq_iff.1 h with ⟨_, hz⟩ | ⟨_, hf⟩
  · cases hz
  · obtain ⟨-, -, rfl⟩ := UnpackedFloat.finite.inj hf
    have hr := totalExponent_rounded m e a
    rw [shiftToTargetExponent_snd]
    have hs := shiftToTargetExponent_snd m e a
    omega

theorem roundWithAccuracy_ne_infinity :
    roundWithAccuracy Format.binary64 s m e a ≠ .infinity s' := by
  unfold roundWithAccuracy
  intro h
  rcases dite_eq_iff.1 h with ⟨_, hz⟩ | ⟨_, hf⟩
  · cases hz
  · cases hf

/-! ### Packing -/

/-- Zero, or finite with an exponent and a mantissa that fit. -/
def Bounded : UnpackedFloat → Prop
  | .zero _ => True
  | .finite _ m e _ => e ≤ maxExponent ∧ m < 2 ^ 53
  | .infinity _ | .notANumber => False

theorem unpack_bounded {b : BitVec Format.binary64.numBits} (hb : unpackExponent b ≠ -1#_) :
    Bounded (UnpackedFloat.unpack Format.binary64 b) := by
  have hbias : (Format.binary64.exponentBias : Int) = 1023 := rfl
  have hbits : (Format.binary64.mantissaBitsWithoutImplicit : Int) = 52 := rfl
  unfold UnpackedFloat.unpack
  dsimp only
  rw [if_neg hb]
  by_cases hz : unpackExponent b = 0#_
  · have hzero : (unpackExponent b).toNat = 0 := by rw [hz]; rfl
    rw [if_pos hz]
    by_cases hm : unpackMantissa b = 0#_
    · rw [dif_pos hm]
      trivial
    · have hlt : (unpackMantissa b).toNat < 2 ^ 52 := (unpackMantissa b).isLt
      rw [dif_neg hm]
      dsimp only [Bounded, maxExponent]
      omega
  · have hlt : (unpackExponent b).toNat < 2 ^ 11 := (unpackExponent b).isLt
    have hne : (unpackExponent b).toNat ≠ 2047 := fun h => hb (BitVec.eq_of_toNat_eq h)
    have hm : (1#1 ++ unpackMantissa b).toNat < 2 ^ 53 := (1#1 ++ unpackMantissa b).isLt
    rw [if_neg hz]
    dsimp only [Bounded, maxExponent]
    omega

theorem isInf_unpack {b : BitVec Format.binary64.numBits}
    (h : (UnpackedFloat.unpack Format.binary64 b).isInf = true) : unpackExponent b = -1#_ := by
  by_contra hb
  have hbounded := unpack_bounded hb
  cases hu : UnpackedFloat.unpack Format.binary64 b with
  | infinity s => rw [hu] at hbounded; exact hbounded
  | notANumber => rw [hu] at h; cases h
  | zero s => rw [hu] at h; cases h
  | finite s m e hm => rw [hu] at h; cases h

theorem bounds_of_unpack {b : BitVec Format.binary64.numBits}
    (h : UnpackedFloat.unpack Format.binary64 b = .finite s m e hm) : e ≤ maxExponent ∧ m < 2 ^ 53 := by
  by_cases hb : unpackExponent b = -1#_
  · unfold UnpackedFloat.unpack at h
    rw [if_pos hb] at h
    rcases ite_eq_iff.1 h with ⟨_, hinf⟩ | ⟨_, hnan⟩
    · cases hinf
    · cases hnan
  · have hbounded := unpack_bounded hb
    rwa [h] at hbounded

theorem isInf_pack_finite (he : e ≤ maxExponent) :
    (Float.Model.pack (.finite s m e hm)).unpack.isInf = false := by
  rw [← Bool.not_eq_true]
  intro h
  have hexp := isInf_unpack h
  unfold Float.Model.pack UnpackedFloat.pack at hexp
  dsimp only at hexp
  have hbias : (Format.binary64.exponentBias : Int) = 1023 := rfl
  simp only [maxExponent] at he
  split at hexp
  · omega
  split at hexp
  · rw [unpackExponent_packComponents] at hexp
    have := congrArg BitVec.toNat hexp
    simp at this
    omega
  · rw [unpackExponent_packComponents] at hexp
    exact absurd hexp (by decide)

/-! ### Halving -/

theorem unpack_two : (2 : Float).toModel.unpack = .finite .positive (2 ^ 52) (-51) (by decide) := by
  rfl

theorem isInf_pack_half (he : e ≤ maxExponent) (hlt : m < 2 ^ 53) :
    (Float.Model.pack (UnpackedFloat.div Format.binary64 (.finite s m e hm)
      (.finite .positive (2 ^ 52) (-51) (by decide)))).unpack.isInf = false := by
  have htwo : totalExponent (2 ^ 52) (-51) = 2 := rfl
  dsimp only [UnpackedFloat.div, divCore]
  rw [htwo]
  set t := min (e - -51) (Format.binary64.targetExponent (totalExponent m e - 2)) with ht
  set k := (e - -51 - t).toNat with hk
  generalize accuracyOfFraction ((m <<< k) % 2 ^ 52) (2 ^ 52) = a
  -- a mantissa of at most 53 bits, so the quotient has one bit more than it was shifted by
  have hq : (m <<< k / 2 ^ 52).log2 ≤ k := by
    refine log2_le_of_lt ?_
    rw [Nat.div_lt_iff_lt_mul (Nat.two_pow_pos 52), Nat.shiftLeft_eq, ← Nat.pow_add]
    calc m * 2 ^ k < 2 ^ 53 * 2 ^ k := Nat.mul_lt_mul_of_pos_right hlt (Nat.two_pow_pos k)
      _ = 2 ^ (k + 1 + 52) := by rw [← Nat.pow_add]; congr 1; omega
  have hm52 : m.log2 ≤ 52 := log2_le_of_lt hlt
  have hfinite : ∀ s' m' e' hm', roundWithAccuracy Format.binary64 (s / .positive) (m <<< k / 2 ^ 52) t a =
      .finite s' m' e' hm' → e' ≤ maxExponent := by
    intro s' m' e' hm' h
    have hr := exponent_roundWithAccuracy h
    simp only [targetExponent_eq, totalExponent, maxExponent] at ht hr he ⊢
    omega
  cases h : roundWithAccuracy Format.binary64 (s / .positive) (m <<< k / 2 ^ 52) t a with
  | infinity s' => exact absurd h roundWithAccuracy_ne_infinity
  | notANumber => rfl
  | zero s' => cases s' <;> rfl
  | finite s' m' e' hm' => exact isInf_pack_finite (hfinite s' m' e' hm' h)

theorem isInf_half (x : Float) : (x / 2).isInf = x.isInf := by
  show (Float.Model.pack (UnpackedFloat.div Format.binary64 x.toModel.unpack
    (2 : Float).toModel.unpack)).unpack.isInf = x.toModel.unpack.isInf
  rw [unpack_two]
  cases h : x.toModel.unpack with
  | infinity s => cases s <;> rfl
  | notANumber => rfl
  | zero s => cases s <;> rfl
  | finite s m e hm =>
    obtain ⟨he, hlt⟩ := bounds_of_unpack h
    exact isInf_pack_half he hlt

end

end InertialRelay.Binary64
