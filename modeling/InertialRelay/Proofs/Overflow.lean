import InertialRelay.Proofs.DecimalReading

/-!
# Overflow

A result is infinite exactly if the number that was rounded is at least `2 ^ 1024 - 2 ^ 970`, the midpoint between the
largest finite value and the next power of two (`RoundsTo.isInf_iff`). `RoundsTo` says in which unit a number is
rounded and to which integer, however it was computed. For integers this is the bound of `ofInt?` (`isInf_ofInt`).
-/

namespace InertialRelay.Binary64

open Float.Model Float.Model.UnpackedFloat

section
variable {s : Sign} {m n : ℕ} {e t k : ℤ} {hm : 0 < m} {a : Accuracy} {v x : ℚ}

/-! ### Infinite results -/

theorem isInf_pack_sized (ht : t ≤ maxExponent) : (Float.Model.pack (sized s n t)).unpack.isInf = false := by
  by_cases hn : n = 0
  · rw [sized, dif_pos hn]
    cases s <;> rfl
  · rw [sized_of_pos (Nat.pos_of_ne_zero hn)]
    exact isInf_pack_finite ht

theorem isInf_pack_of_overflow (ht : maxExponent < t) :
    (Float.Model.pack (.finite s m t hm)).unpack.isInf = true := by
  show (UnpackedFloat.unpack Format.binary64 (UnpackedFloat.pack Format.binary64 _)).isInf = true
  rw [pack_overflow ht]
  cases s <;> rfl

/-! ### Units -/

/-- A positive number is rounded in units of `2 ^ t`, to `n` of them. -/
structure RoundsTo (x : ℚ) (n : ℕ) (t : ℤ) : Prop where
  bottom : -1074 ≤ t
  ge : t = -1074 ∨ (2 : ℚ) ^ (t + 52) ≤ x
  lt : x < 2 ^ (t + 53)
  nearest : Nearest n (x / 2 ^ t)

/-- The value of `n` units, where a full mantissa moves on to the next unit. -/
def carried (s : Sign) (n : ℕ) (t : ℤ) : UnpackedFloat :=
  if n = 2 ^ 53 then sized s (2 ^ 52) (t + 1) else sized s n t

theorem lt_of_covers (hv : Covers (.ofMantissaAndAccuracy m a) v) (hk : (m.log2 : ℤ) + 1 + e ≤ k) :
    v * 2 ^ e < 2 ^ k := by
  have hpow : (0 : ℚ) < 2 ^ e := by positivity
  have hlt := hv.lt
  rw [mantissa_ofMantissaAndAccuracy] at hlt
  have hlog : (m : ℚ) + 1 ≤ 2 ^ (m.log2 + 1) := by exact_mod_cast Nat.succ_le_of_lt Nat.lt_log2_self
  calc v * 2 ^ e < 2 ^ (m.log2 + 1) * 2 ^ e := mul_lt_mul_of_pos_right (hlt.trans_le hlog) hpow
    _ = 2 ^ ((m.log2 + 1 : ℕ) + e) := by rw [zpow_add₀ two_ne_zero, zpow_natCast]
    _ ≤ 2 ^ k := zpow_le_zpow_right₀ one_le_two (by push_cast; exact hk)

theorem le_of_covers (hv : Covers (.ofMantissaAndAccuracy m a) v) (hm : m ≠ 0) :
    (2 : ℚ) ^ (m.log2 + e) ≤ v * 2 ^ e := by
  have hle := hv.le
  rw [mantissa_ofMantissaAndAccuracy] at hle
  have hlog : (2 : ℚ) ^ m.log2 ≤ m := by exact_mod_cast Nat.log2_self_le hm
  rw [zpow_add₀ two_ne_zero, zpow_natCast]
  exact mul_le_mul_of_nonneg_right (hlog.trans hle) (by positivity)

theorem exists_roundsTo (he : e ≤ Format.binary64.targetExponent (totalExponent m e))
    (hv : Covers (.ofMantissaAndAccuracy m a) v) :
    ∃ n, RoundsTo (v * 2 ^ e) n (Format.binary64.targetExponent (totalExponent m e)) ∧
      roundWithAccuracy Format.binary64 s m e a =
        carried s n (Format.binary64.targetExponent (totalExponent m e)) := by
  set t := Format.binary64.targetExponent (totalExponent m e) with ht
  have hnear := hv.nearest_shiftRight he
  have heq := roundWithAccuracy_eq (s := s) ht.symm he hv hnear
  rw [mul_zpow_sub] at hnear
  rw [targetExponent_eq, totalExponent] at ht
  refine ⟨_, ⟨by omega, ?_, lt_of_covers hv (by omega), hnear⟩, heq⟩
  by_cases hbottom : t = -1074
  · exact .inl hbottom
  · have hm : m ≠ 0 := by
      rintro rfl
      rw [Nat.log2_zero] at ht
      omega
    refine .inr (le_trans (zpow_le_zpow_right₀ one_le_two ?_) (le_of_covers hv hm))
    omega

theorem midpoint_eq : (2 ^ 1024 - 2 ^ 970 : ℚ) = (2 ^ 53 - 1 / 2) * 2 ^ (971 : ℤ) := by
  have h1024 : (2 : ℚ) ^ 1024 = 2 ^ 54 * 2 ^ 970 := pow_add 2 54 970
  have h971 : (2 : ℚ) ^ (971 : ℤ) = 2 * 2 ^ 970 := (zpow_natCast 2 971).trans (pow_succ' 2 970)
  rw [h1024, h971]
  generalize (2 : ℚ) ^ 970 = c
  ring

namespace RoundsTo

theorem le_full (h : RoundsTo x n t) : n ≤ 2 ^ 53 := by
  have hpow : (0 : ℚ) < 2 ^ t := by positivity
  have hx : x / 2 ^ t < 2 ^ 53 := by
    rw [div_lt_iff₀ hpow, ← two_zpow_add]
    exact h.lt
  have hn : (n : ℚ) < 2 ^ 53 + 1 := by linarith [h.nearest.ge]
  have hn : n < 2 ^ 53 + 1 := by exact_mod_cast hn
  omega

theorem full_le (h : RoundsTo x n t) (ht : -1074 < t) : 2 ^ 52 ≤ n := by
  have hpow : (0 : ℚ) < 2 ^ t := by positivity
  have hx : 2 ^ 52 ≤ x / 2 ^ t := by
    rw [le_div_iff₀ hpow, ← two_zpow_add]
    exact h.ge.resolve_left ht.ne'
  have hn : (2 ^ 52 : ℚ) < n + 1 := by linarith [h.nearest.le]
  have hn : 2 ^ 52 < n + 1 := by exact_mod_cast hn
  omega

theorem lt_midpoint_of_lt (h : RoundsTo x n t) (ht : t < maxExponent) : x < 2 ^ 1024 - 2 ^ 970 := by
  simp only [maxExponent] at ht
  rw [midpoint_eq]
  calc x < 2 ^ (t + 53) := h.lt
    _ ≤ 2 ^ ((970 : ℤ) + 53) := zpow_le_zpow_right₀ one_le_two (by omega)
    _ = 2 ^ 52 * 2 ^ (971 : ℤ) := by rw [← two_zpow_add, show (970 : ℤ) + 53 = 971 + 52 by norm_num]
    _ < (2 ^ 53 - 1 / 2) * 2 ^ (971 : ℤ) := mul_lt_mul_of_pos_right (by norm_num) (by positivity)

theorem midpoint_le_of_lt (h : RoundsTo x n t) (ht : maxExponent < t) : (2 ^ 1024 - 2 ^ 970 : ℚ) ≤ x := by
  simp only [maxExponent] at ht
  rw [midpoint_eq]
  calc ((2 ^ 53 - 1 / 2) * 2 ^ (971 : ℤ) : ℚ) ≤ 2 ^ 53 * 2 ^ (971 : ℤ) :=
        mul_le_mul_of_nonneg_right (by norm_num) (by positivity)
    _ = 2 ^ ((971 : ℤ) + 53) := (two_zpow_add _ _).symm
    _ ≤ 2 ^ (t + 52) := zpow_le_zpow_right₀ one_le_two (by omega)
    _ ≤ x := h.ge.resolve_left (by omega)

/-- A tie between the largest mantissa and the next power of two goes to the power. -/
theorem midpoint_le_iff (h : RoundsTo x n maxExponent) : (2 ^ 1024 - 2 ^ 970 : ℚ) ≤ x ↔ n = 2 ^ 53 := by
  have hpow : (0 : ℚ) < 2 ^ maxExponent := by positivity
  rw [midpoint_eq]
  change (2 ^ 53 - 1 / 2) * 2 ^ maxExponent ≤ x ↔ _
  rw [← le_div_iff₀ hpow]
  constructor
  · intro hx
    by_contra hn
    have hle : (n : ℚ) + 1 ≤ 2 ^ 53 := by exact_mod_cast lt_of_le_of_ne h.le_full hn
    have htie : x / 2 ^ maxExponent = n + 1 / 2 := le_antisymm h.nearest.le (by linarith)
    have hodd : (n : ℚ) = (2 ^ 53 - 1 : ℕ) := by
      push_cast
      linarith
    have heven := h.nearest.even (.inr htie)
    rw [Nat.cast_inj.1 hodd] at heven
    exact absurd heven (by decide)
  · rintro rfl
    have hge := h.nearest.ge
    rwa [Nat.cast_pow, Nat.cast_ofNat] at hge

theorem isInf_iff (h : RoundsTo x n t) :
    (Float.Model.pack (carried s n t)).unpack.isInf = true ↔ (2 ^ 1024 - 2 ^ 970 : ℚ) ≤ x := by
  unfold carried
  rcases lt_trichotomy t maxExponent with ht | rfl | ht
  · refine iff_of_false (Bool.eq_false_iff.1 ?_) (not_le.2 (h.lt_midpoint_of_lt ht))
    split
    · exact isInf_pack_sized (by omega)
    · exact isInf_pack_sized ht.le
  · rw [h.midpoint_le_iff]
    split
    next hn =>
      rw [sized_of_pos (Nat.two_pow_pos 52)]
      exact iff_of_true (isInf_pack_of_overflow (by omega)) hn
    next hn => exact iff_of_false (Bool.eq_false_iff.1 (isInf_pack_sized le_rfl)) hn
  · refine iff_of_true ?_ (h.midpoint_le_of_lt ht)
    have hn : 0 < n := by
      simp only [maxExponent] at ht
      exact lt_of_lt_of_le (Nat.two_pow_pos 52) (h.full_le (by omega))
    split
    · rw [sized_of_pos (Nat.two_pow_pos 52)]
      exact isInf_pack_of_overflow (by omega)
    · rw [sized_of_pos hn]
      exact isInf_pack_of_overflow ht

end RoundsTo

theorem isInf_round_iff (he : e ≤ Format.binary64.targetExponent (totalExponent m e))
    (hv : Covers (.ofMantissaAndAccuracy m a) v) :
    (Float.Model.pack (roundWithAccuracy Format.binary64 s m e a)).unpack.isInf = true ↔
      (2 ^ 1024 - 2 ^ 970 : ℚ) ≤ v * 2 ^ e := by
  obtain ⟨n, h, hround⟩ := exists_roundsTo (s := s) he hv
  rw [hround, h.isInf_iff]

/-- A product of full length. -/
theorem isInf_pack_mul_iff {s₁ s₂ : Sign} {m₁ m₂ : ℕ} {e₁ e₂ : ℤ} {h₁ : 0 < m₁} {h₂ : 0 < m₂}
    (hlog : 52 ≤ (m₁ * m₂).log2) :
    (Float.Model.pack (UnpackedFloat.mul Format.binary64 (.finite s₁ m₁ e₁ h₁) (.finite s₂ m₂ e₂ h₂))).unpack.isInf =
        true ↔
      (2 ^ 1024 - 2 ^ 970 : ℚ) ≤ m₁ * 2 ^ e₁ * (m₂ * 2 ^ e₂) := by
  have hv : Covers (.ofMantissaAndAccuracy (m₁ * m₂) .exact) (m₁ * m₂) := (Nat.cast_mul m₁ m₂).symm
  have he : e₁ + e₂ ≤ Format.binary64.targetExponent (totalExponent (m₁ * m₂) (e₁ + e₂)) := by
    rw [targetExponent_eq, totalExponent]
    omega
  rw [mul_mul_mul_comm, ← zpow_add₀ two_ne_zero]
  exact isInf_round_iff he hv

theorem isInf_mul_iff {x y : Float} {s₁ s₂ : Sign} {m₁ m₂ : ℕ} {e₁ e₂ : ℤ} {h₁ : 0 < m₁} {h₂ : 0 < m₂}
    (hx : unpack x = .finite s₁ m₁ e₁ h₁) (hy : unpack y = .finite s₂ m₂ e₂ h₂) (hlog : 52 ≤ (m₁ * m₂).log2) :
    (x * y).isInf = true ↔ (2 ^ 1024 - 2 ^ 970 : ℚ) ≤ m₁ * 2 ^ e₁ * (m₂ * 2 ^ e₂) := by
  show (Float.Model.pack (UnpackedFloat.mul Format.binary64 (unpack x) (unpack y))).unpack.isInf = true ↔ _
  rw [hx, hy]
  exact isInf_pack_mul_iff hlog

end

/-! ### Integers -/

theorem isInf_neg (x : Float) : x.neg.isInf = x.isInf := by
  show (Float.Model.pack (unpack x).neg).unpack.isInf = (unpack x).isInf
  cases h : unpack x with
  | infinity s => cases s <;> rfl
  | notANumber => rfl
  | zero s => cases s <;> rfl
  | finite s m e hm =>
    obtain ⟨hc, he⟩ := canonical_of_unpack h
    exact isInf_pack_finite he

theorem twoTo_le {d e : ℕ} (h : d ≤ e) : twoTo d ≤ twoTo e := Nat.pow_le_pow_right Nat.two_pos h

theorem cast_tooLarge {R : Type*} [CommRing R] : (tooLarge : R) = 2 ^ 1024 - 2 ^ 970 := by
  have hcast (e : ℕ) : (twoTo e : R) = 2 ^ e := Nat.cast_pow 2 e
  rw [← hcast 1024, ← hcast 970]
  exact Nat.cast_sub (twoTo_le (by norm_num))

theorem shiftLeft_pos {n : ℕ} (hn : 0 < n) (k : ℕ) : 0 < n <<< k := by
  rw [Nat.shiftLeft_eq]
  positivity

/-- A decimal without a fraction is shifted up before it is rounded. -/
theorem ofScientific_of_nonneg {n : ℕ} {e : ℤ} (hn : 0 < n) (he : 0 ≤ e) (hlimit : e ≤ 2 ^ 11) :
    UnpackedFloat.ofScientific Format.binary64 n e =
      UnpackedFloat.mul Format.binary64 (.finite .positive (n <<< 53) (-53) (shiftLeft_pos hn 53))
        (.finite .positive (10 ^ e.toNat) 0 (Nat.pow_pos (by decide))) := by
  have hhigh : ¬e > 2 ^ Format.binary64.exponentBits := not_lt.2 hlimit
  have hlow : ¬e < -((2 ^ Format.binary64.exponentBits : ℤ) + n.log2) := by
    show ¬e < -(2 ^ 11 + (n.log2 : ℤ))
    omega
  unfold UnpackedFloat.ofScientific
  rw [dif_neg hn.ne', if_neg hhigh, if_neg hlow, if_pos he]
  rfl

theorem isInf_ofNat (n : ℕ) : (Float.ofNat n).isInf = true ↔ tooLarge ≤ n := by
  show (Float.ofScientific n false 0).isInf = true ↔ _
  rw [← Nat.cast_le (α := ℚ), cast_tooLarge]
  rcases Nat.eq_zero_or_pos n with rfl | hn
  · refine iff_of_false (by decide) ?_
    rw [midpoint_eq]
    norm_num
  unfold Float.ofScientific
  split
  next h =>
    obtain ⟨n₁, q₁, h₁, hx, hn₁, hv₁⟩ := unpack_ofUInt64 hn h.1
    obtain ⟨n₂, q₂, h₂, hy, -, hv₂⟩ := unpack_powerOfTen (Nat.lt_succ_of_le h.2)
    have hlog : 52 ≤ (n₁ * n₂).log2 :=
      (Nat.le_log2 (Nat.mul_ne_zero h₁.ne' h₂.ne')).2 (hn₁.trans (Nat.le_mul_of_pos_right _ h₂))
    have hmul := isInf_mul_iff hx hy hlog
    rwa [hv₁, hv₂, pow_zero, mul_one] at hmul
  next h =>
    show (Float.Model.pack (UnpackedFloat.ofScientific Format.binary64 n 0)).unpack.isInf = true ↔ _
    rw [ofScientific_of_nonneg hn le_rfl (by norm_num)]
    exact (isInf_pack_mul_iff (le_log2_shifted hn 0)).trans (by rw [shifted_value, pow_zero, mul_one])

theorem isInf_ofInt (n : ℤ) : (Float.ofInt n).isInf = true ↔ tooLarge ≤ n.natAbs := by
  cases n with
  | ofNat n => exact isInf_ofNat n
  | negSucc n =>
    show (Float.ofNat (n + 1)).neg.isInf = true ↔ _
    rw [isInf_neg]
    exact isInf_ofNat (n + 1)

end InertialRelay.Binary64
