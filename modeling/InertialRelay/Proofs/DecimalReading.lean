import InertialRelay.Proofs.Packing
import InertialRelay.Proofs.ShortestDecimals
import InertialRelay.Text.Numeral

/-!
# Reading a decimal

A decimal in the interval of a value is read as the value, whether its power of ten is a value itself or has to
be computed (`Numeral.scientific_of_holds`). In both cases a single product or quotient is rounded.
-/

namespace InertialRelay

namespace Binary64

open Float.Model Float.Model.UnpackedFloat

section
variable {s s₁ s₂ : Sign} {n m₁ m₂ : ℕ} {q e₁ e₂ : ℤ} {h₁ : 0 < m₁} {h₂ : 0 < m₂}

/-! ### Products and quotients -/

theorem mul_of_holds (hc : Canonical n q) (hlog : 52 ≤ (m₁ * m₂).log2)
    (hi : (Interval.ofMantissa n q).Holds (m₁ * 2 ^ e₁ * (m₂ * 2 ^ e₂))) :
    UnpackedFloat.mul Format.binary64 (.finite s₁ m₁ e₁ h₁) (.finite s₂ m₂ e₂ h₂) =
      .finite (s₁ * s₂) n q hc.pos := by
  have hv : Covers (.ofMantissaAndAccuracy (m₁ * m₂) .exact) (m₁ * m₂) := (Nat.cast_mul m₁ m₂).symm
  refine roundWithAccuracy_of_holds hc ?_ hv ?_
  · rw [targetExponent_eq, totalExponent]
    omega
  · rw [zpow_add₀ two_ne_zero, mul_mul_mul_comm]
    exact hi

/-- A remainder is told by its residual bits as far as it matters. -/
theorem covers_fraction {r d : ℕ} (a : ℕ) (hr : r < d) :
    Covers (.ofMantissaAndAccuracy a (accuracyOfFraction r d)) (a + r / d : ℚ) := by
  have hpos : (0 : ℚ) < d := by exact_mod_cast Nat.zero_lt_of_lt hr
  have hlt : (r : ℚ) / d < 1 := (div_lt_one hpos).2 (by exact_mod_cast hr)
  unfold accuracyOfFraction
  split
  · next h => simp [Covers, ExtendedMantissa.ofMantissaAndAccuracy, h]
  · next h =>
    have hrpos : (0 : ℚ) < (r : ℚ) / d := div_pos (by exact_mod_cast Nat.pos_of_ne_zero h) hpos
    cases hcmp : compare (2 * r) d with
    | lt =>
      have h2 : (2 * r : ℚ) < d := by exact_mod_cast Nat.compare_eq_lt.1 hcmp
      have hhalf : (r : ℚ) / d < 1 / 2 := by rw [div_lt_iff₀ hpos]; linarith
      show (a : ℚ) < a + r / d ∧ (a : ℚ) + r / d < a + 1 / 2
      exact ⟨by linarith, by linarith⟩
    | eq =>
      have h2 : (2 * r : ℚ) = d := by exact_mod_cast Nat.compare_eq_eq.1 hcmp
      have hhalf : (r : ℚ) / d = 1 / 2 := by rw [div_eq_iff hpos.ne']; linarith
      show _ = (a : ℚ) + 1 / 2
      rw [hhalf]
    | gt =>
      have h2 : (d : ℚ) < 2 * r := by exact_mod_cast Nat.compare_eq_gt.1 hcmp
      have hhalf : 1 / 2 < (r : ℚ) / d := by rw [lt_div_iff₀ hpos]; linarith
      show (a : ℚ) + 1 / 2 < a + r / d ∧ (a : ℚ) + r / d < a + 1
      exact ⟨by linarith, by linarith⟩

theorem covers_div {m d : ℕ} (hd : 0 < d) :
    Covers (.ofMantissaAndAccuracy (m / d) (accuracyOfFraction (m % d) d)) (m / d : ℚ) := by
  have hv : (m / d : ℚ) = (m / d : ℕ) + (m % d : ℕ) / d := by
    have hm : (m : ℚ) = d * (m / d : ℕ) + (m % d : ℕ) := by exact_mod_cast (Nat.div_add_mod m d).symm
    have hne : (d : ℚ) ≠ 0 := by exact_mod_cast hd.ne'
    rw [div_eq_iff hne, add_mul, div_mul_cancel₀ _ hne]
    linarith
  rw [hv]
  exact covers_fraction _ (Nat.mod_lt m hd)

/-- The quotient of two mantissas has as many bits as the result asks for. -/
theorem le_targetExponent_div (h₁ : 0 < m₁) (h₂ : 0 < m₂) {t : ℤ}
    (ht : t = min (e₁ - e₂) (Format.binary64.targetExponent (totalExponent m₁ e₁ - totalExponent m₂ e₂))) :
    t ≤ Format.binary64.targetExponent (totalExponent (m₁ <<< (e₁ - e₂ - t).toNat / m₂) t) := by
  rw [targetExponent_eq, totalExponent, totalExponent] at ht
  rw [targetExponent_eq, totalExponent]
  by_cases hmin : t ≤ -1074
  · omega
  set k := (e₁ - e₂ - t).toNat with hk
  have hbits : 2 ^ 52 ≤ m₁ <<< k / m₂ := by
    rw [Nat.le_div_iff_mul_le h₂, Nat.shiftLeft_eq]
    calc 2 ^ 52 * m₂ ≤ 2 ^ 52 * 2 ^ (m₂.log2 + 1) := Nat.mul_le_mul_left _ Nat.lt_log2_self.le
      _ = 2 ^ (52 + (m₂.log2 + 1)) := (Nat.pow_add 2 52 _).symm
      _ ≤ 2 ^ (m₁.log2 + k) := Nat.pow_le_pow_right Nat.two_pos (by omega)
      _ = 2 ^ m₁.log2 * 2 ^ k := Nat.pow_add 2 _ _
      _ ≤ m₁ * 2 ^ k := Nat.mul_le_mul_right _ (Nat.log2_self_le h₁.ne')
  have hlog : 52 ≤ (m₁ <<< k / m₂).log2 := (Nat.le_log2 (by omega)).2 hbits
  omega

theorem div_of_holds (hc : Canonical n q)
    (hi : (Interval.ofMantissa n q).Holds (m₁ * 2 ^ e₁ / (m₂ * 2 ^ e₂))) :
    UnpackedFloat.div Format.binary64 (.finite s₁ m₁ e₁ h₁) (.finite s₂ m₂ e₂ h₂) =
      .finite (s₁ / s₂) n q hc.pos := by
  dsimp only [UnpackedFloat.div, divCore]
  set t := min (e₁ - e₂) (Format.binary64.targetExponent (totalExponent m₁ e₁ - totalExponent m₂ e₂)) with ht
  refine roundWithAccuracy_of_holds hc (le_targetExponent_div h₁ h₂ ht) (covers_div h₂) ?_
  have hshift : (e₁ - e₂ - t).toNat = e₁ - e₂ - t := Int.toNat_of_nonneg (by omega)
  have hvalue : ((m₁ <<< (e₁ - e₂ - t).toNat : ℕ) : ℚ) / m₂ * 2 ^ t = m₁ * 2 ^ e₁ / (m₂ * 2 ^ e₂) := by
    rw [Nat.shiftLeft_eq]
    push_cast
    rw [← zpow_natCast, hshift, zpow_sub₀ two_ne_zero, zpow_sub₀ two_ne_zero]
    field_simp
  rw [hvalue]
  exact hi

/-! ### Integers and powers of ten as values -/

theorem holds_self (hn : 0 < n) : (Interval.ofMantissa n q).Holds (n * 2 ^ q) := by
  have hpow : (0 : ℚ) < 2 ^ q := by positivity
  have hlow : (Interval.ofMantissa n q).lower < 4 * n := by
    show 4 * n - (if n = twoTo 52 ∧ -1074 < q then 1 else 2) < 4 * n
    split <;> omega
  have hlow' : ((Interval.ofMantissa n q).lower : ℚ) < 4 * n := by exact_mod_cast hlow
  rw [Interval.holds_ofMantissa, mul_div_cancel_right₀ _ hpow.ne']
  split
  · exact ⟨by linarith, by linarith⟩
  · exact ⟨by linarith, by linarith⟩

theorem roundWithAccuracy_self (hc : Canonical n q) :
    roundWithAccuracy Format.binary64 s n q .exact = .finite s n q hc.pos := by
  have hv : Covers (.ofMantissaAndAccuracy n .exact) n := rfl
  refine roundWithAccuracy_of_holds hc ?_ hv (holds_self hc.pos)
  have hge := hc.ge
  have hlog : -1074 < q → 52 ≤ n.log2 := fun hq => (Nat.le_log2 hc.pos.ne').2 (hc.normal hq)
  rw [targetExponent_eq, totalExponent]
  omega

/-- An integer that fits is shifted up to full length, and nothing is rounded off. -/
theorem ofNat_of_canonical {m k : ℕ} (hm : 0 < m) (hk : m.log2 + k = 52) (hc : Canonical (m <<< k) (-k)) :
    UnpackedFloat.ofNat Format.binary64 m = .finite .positive (m <<< k) (-k) hc.pos := by
  have hcmp : compare (m : ℤ) 0 = .gt := by
    rw [Int.compare_eq_gt]
    exact_mod_cast hm
  have htarget : Format.binary64.targetExponent (totalExponent m 0) = -k := by
    rw [targetExponent_eq, totalExponent]
    omega
  rw [UnpackedFloat.ofNat, UnpackedFloat.ofInt, UnpackedFloat.normalize, hcmp]
  show UnpackedFloat.round _ _ _ _ = _
  rw [UnpackedFloat.round, decreaseExponent, Int.toNat_natCast, htarget]
  simp only [zero_sub, neg_neg, Int.toNat_natCast]
  exact roundWithAccuracy_self hc

/-- An integer of at most 53 bits is a value itself. -/
theorem unpack_ofUInt64 {m : ℕ} (hm : 0 < m) (hlt : m < 2 ^ 53) :
    ∃ n q hn, unpack m.toUInt64.toFloat = .finite .positive n q hn ∧ 2 ^ 52 ≤ n ∧ (n : ℚ) * 2 ^ q = m := by
  obtain ⟨k, hk⟩ : ∃ k, m.log2 + k = 52 := Nat.le.dest (log2_le_of_lt hlt)
  have hlow : 2 ^ 52 ≤ m <<< k := by
    rw [Nat.shiftLeft_eq]
    calc 2 ^ 52 = 2 ^ m.log2 * 2 ^ k := by rw [← Nat.pow_add]; congr 1; omega
      _ ≤ m * 2 ^ k := Nat.mul_le_mul_right _ (Nat.log2_self_le hm.ne')
  have hhigh : m <<< k < 2 ^ 53 := by
    rw [Nat.shiftLeft_eq]
    calc m * 2 ^ k < 2 ^ (m.log2 + 1) * 2 ^ k :=
          Nat.mul_lt_mul_of_pos_right Nat.lt_log2_self (Nat.two_pow_pos k)
      _ = 2 ^ 53 := by rw [← Nat.pow_add]; congr 1; omega
  have hc : Canonical (m <<< k) (-k) := ⟨by omega, hhigh, by omega, fun _ => hlow⟩
  have hnat : m.toUInt64.toNat = m := Nat.mod_eq_of_lt (by omega)
  refine ⟨m <<< k, -k, hc.pos, ?_, hlow, ?_⟩
  · show UnpackedFloat.unpack Format.binary64 (UnpackedFloat.pack Format.binary64
      (UnpackedFloat.ofNat Format.binary64 m.toUInt64.toNat)) = _
    rw [hnat, ofNat_of_canonical hm hk hc]
    exact unpack_pack_finite hc (by simp only [maxExponent]; omega)
  · rw [Nat.shiftLeft_eq, zpow_neg, zpow_natCast]
    push_cast
    exact mul_inv_cancel_right₀ (by positivity) _

/-- Whether a value of full precision is `10 ^ e`. -/
def isPowerOfTen (x : Float) (e : ℕ) : Bool :=
  match unpack x with
  | .finite .positive n q _ => 2 ^ 52 ≤ n && n * 2 ^ q.toNat == 10 ^ e * 2 ^ (-q).toNat
  | _ => false

theorem exists_of_isPowerOfTen {x : Float} {e : ℕ} (h : isPowerOfTen x e = true) :
    ∃ n q hn, unpack x = .finite .positive n q hn ∧ 2 ^ 52 ≤ n ∧ (n : ℚ) * 2 ^ q = 10 ^ e := by
  unfold isPowerOfTen at h
  split at h
  · next n q hn hx =>
    rw [Bool.and_eq_true, decide_eq_true_eq, beq_iff_eq] at h
    refine ⟨n, q, hn, hx, h.1, ?_⟩
    have hpow : (0 : ℚ) < 2 ^ (-q).toNat := by positivity
    have heq : (n : ℚ) * 2 ^ q.toNat = 10 ^ e * 2 ^ (-q).toNat := by exact_mod_cast h.2
    rw [pow_toNat_eq two_ne_zero, ← mul_assoc] at heq
    exact mul_right_cancel₀ hpow.ne' heq
  · cases h

theorem isPowerOfTen_table :
    ∀ (e : ℕ) (_ : e < Float.exactlyRepresentablePowersOfTen.size),
      isPowerOfTen Float.exactlyRepresentablePowersOfTen[e] e = true := by
  decide +kernel

theorem unpack_powerOfTen {e : ℕ} (he : e < Float.exactlyRepresentablePowersOfTen.size) :
    ∃ n q hn, unpack Float.exactlyRepresentablePowersOfTen[e] = .finite .positive n q hn ∧
      2 ^ 52 ≤ n ∧ (n : ℚ) * 2 ^ q = 10 ^ e :=
  exists_of_isPowerOfTen (isPowerOfTen_table e he)

/-! ### Decimals -/

/-- A decimal in the interval of a value is not beyond the range. -/
theorem exponent_le_of_holds {m : ℕ} {e : ℤ} (hc : Canonical n q) (hq : q ≤ maxExponent) (hm : 0 < m)
    (hi : (Interval.ofMantissa n q).Holds (m * 10 ^ e)) : e ≤ 2 ^ 11 := by
  by_contra h
  have hpow : (0 : ℚ) < 2 ^ q := by positivity
  have hm1 : (1 : ℚ) ≤ m := by exact_mod_cast hm
  have hn : (n : ℚ) + 1 ≤ 2 ^ 53 := by exact_mod_cast hc.lt
  have hle := (Interval.nearest_of_holds hc.pos hi).le
  rw [div_le_iff₀ hpow] at hle
  -- `2 ^ e` for `10 ^ e` is good enough this far out
  have hlarge : (2 : ℚ) ^ e ≤ m * 10 ^ e := by
    calc (2 : ℚ) ^ e ≤ 10 ^ e := zpow_le_zpow_left₀ (by omega) (by norm_num) (by norm_num)
      _ ≤ m * 10 ^ e := le_mul_of_one_le_left (by positivity) hm1
  have hlt : (2 : ℚ) ^ e < 2 ^ (q + 53) := by
    rw [two_zpow_add]
    exact lt_of_le_of_lt (hlarge.trans hle) (mul_lt_mul_of_pos_right (by linarith) hpow)
  have hexp := (zpow_lt_zpow_iff_right₀ one_lt_two).1 hlt
  simp only [maxExponent] at hq
  omega

/-- A decimal in the interval of a value is not too small for its digits. -/
theorem le_exponent_of_holds {m : ℕ} {e : ℤ} (hc : Canonical n q)
    (hi : (Interval.ofMantissa n q).Holds (m * 10 ^ e)) : -(2 ^ 11 + (m.log2 : ℤ)) ≤ e := by
  by_contra h
  have hpow : (0 : ℚ) < 2 ^ q := by positivity
  have hone : (1 : ℚ) ≤ n := by exact_mod_cast hc.pos
  have hge := (Interval.nearest_of_holds hc.pos hi).ge
  rw [le_div_iff₀ hpow] at hge
  have hlow : (2 : ℚ) ^ (q - 1) ≤ m * 10 ^ e := by
    rw [zpow_sub_one₀ two_ne_zero]
    nlinarith
  have hten : (10 : ℚ) ^ e ≤ 2 ^ e := ten_zpow_le_two_zpow (by omega) (by omega)
  have hsmall : (m : ℚ) * 10 ^ e < 2 ^ ((m.log2 : ℤ) + 1 + e) := by
    rw [zpow_add₀ two_ne_zero]
    have hlog : (m : ℚ) < 2 ^ ((m.log2 : ℤ) + 1) := by exact_mod_cast Nat.lt_log2_self
    exact mul_lt_mul hlog hten (by positivity) (by positivity)
  have hexp := (zpow_lt_zpow_iff_right₀ one_lt_two).1 (lt_of_le_of_lt hlow hsmall)
  have hbottom := hc.ge
  omega

theorem zpow_of_neg {e : ℤ} (he : e < 0) : (10 : ℚ) ^ e = (10 ^ e.natAbs)⁻¹ := by
  rw [← zpow_natCast, ← zpow_neg]
  congr 1
  omega

theorem zpow_of_nonneg {e : ℤ} (he : 0 ≤ e) : (10 : ℚ) ^ e = 10 ^ e.natAbs := by
  rw [← zpow_natCast]
  congr 1
  omega

/-- A decimal of few digits is a product or a quotient of two values. -/
theorem ofScientific_fast {m : ℕ} {e : ℤ} (hc : Canonical n q) (hm : 0 < m) (hlt : m < 2 ^ 53)
    (he : e.natAbs ≤ 22) (hi : (Interval.ofMantissa n q).Holds (m * 10 ^ e)) :
    Float.ofScientific m (e < 0) e.natAbs = ⟨Float.Model.pack (.finite .positive n q hc.pos)⟩ := by
  obtain ⟨n₁, q₁, h₁, hx, hn₁, hv₁⟩ := unpack_ofUInt64 hm hlt
  obtain ⟨n₂, q₂, h₂, hy, hn₂, hv₂⟩ := unpack_powerOfTen (Nat.lt_succ_of_le he)
  rw [Float.ofScientific, dif_pos ⟨hlt, he⟩]
  by_cases hneg : e < 0
  · rw [zpow_of_neg hneg, ← div_eq_mul_inv, ← hv₁, ← hv₂] at hi
    have hdiv : UnpackedFloat.div Format.binary64 (.finite .positive n₁ q₁ h₁) (.finite .positive n₂ q₂ h₂) =
      .finite .positive n q hc.pos := div_of_holds hc hi
    rw [← hx, ← hy] at hdiv
    rw [if_pos (decide_eq_true hneg)]
    exact congrArg (fun u => (⟨Float.Model.pack u⟩ : Float)) hdiv
  · rw [zpow_of_nonneg (not_lt.1 hneg), ← hv₁, ← hv₂] at hi
    have hlog : 52 ≤ (n₁ * n₂).log2 :=
      (Nat.le_log2 (Nat.mul_ne_zero h₁.ne' h₂.ne')).2 (le_trans hn₁ (Nat.le_mul_of_pos_right _ h₂))
    have hmul : UnpackedFloat.mul Format.binary64 (.finite .positive n₁ q₁ h₁) (.finite .positive n₂ q₂ h₂) =
      .finite .positive n q hc.pos := mul_of_holds hc hlog hi
    rw [← hx, ← hy] at hmul
    rw [if_neg (by simpa using hneg)]
    exact congrArg (fun u => (⟨Float.Model.pack u⟩ : Float)) hmul

/-- The mantissa is shifted up before the product, which has full length for that reason. -/
theorem le_log2_shifted {m : ℕ} (hm : 0 < m) (k : ℕ) : 52 ≤ (m <<< 53 * 10 ^ k).log2 := by
  have hbits : 2 ^ 52 ≤ m <<< 53 * 10 ^ k := by
    rw [Nat.shiftLeft_eq, mul_right_comm]
    exact le_trans (by norm_num) (Nat.le_mul_of_pos_left (2 ^ 53) (by positivity))
  refine (Nat.le_log2 fun h => ?_).2 hbits
  rw [h] at hbits
  exact absurd hbits (by decide)

theorem shifted_value (m k : ℕ) :
    ((m <<< 53 : ℕ) : ℚ) * 2 ^ (-53 : ℤ) * ((10 ^ k : ℕ) * 2 ^ (0 : ℤ)) = m * 10 ^ k := by
  rw [Nat.shiftLeft_eq]
  push_cast
  ring

theorem ofScientific_slow {m : ℕ} {e : ℤ} (hc : Canonical n q) (hq : q ≤ maxExponent) (hm : 0 < m)
    (hi : (Interval.ofMantissa n q).Holds (m * 10 ^ e)) :
    UnpackedFloat.ofScientific Format.binary64 m e = .finite .positive n q hc.pos := by
  have hhigh := exponent_le_of_holds hc hq hm hi
  have hlow := le_exponent_of_holds hc hi
  rw [UnpackedFloat.ofScientific, dif_neg hm.ne', if_neg (by show ¬e > 2 ^ 11; omega),
    if_neg (by show ¬e < -(2 ^ 11 + (m.log2 : ℤ)); omega)]
  by_cases he : 0 ≤ e
  · rw [zpow_of_nonneg he, show e.natAbs = e.toNat by omega, ← shifted_value] at hi
    rw [if_pos he]
    exact mul_of_holds hc (le_log2_shifted hm _) hi
  · have hvalue : (m : ℚ) * 2 ^ (0 : ℤ) / ((10 ^ (-e).toNat : ℕ) * 2 ^ (0 : ℤ)) = m * 10 ^ e := by
      rw [zpow_of_neg (not_le.1 he), show (-e).toNat = e.natAbs by omega, div_eq_mul_inv]
      push_cast
      ring
    rw [← hvalue] at hi
    rw [if_neg he]
    exact div_of_holds hc hi

theorem ofScientific_of_holds {m : ℕ} {e : ℤ} (hc : Canonical n q) (hq : q ≤ maxExponent) (hm : 0 < m)
    (hi : (Interval.ofMantissa n q).Holds (m * 10 ^ e)) :
    Float.ofScientific m (e < 0) e.natAbs = ⟨Float.Model.pack (.finite .positive n q hc.pos)⟩ := by
  by_cases h : m < 2 ^ 53 ∧ e.natAbs ≤ 22
  · exact ofScientific_fast hc hm h.1 h.2 hi
  · have he : (if decide (e < 0) = true then Int.negOfNat e.natAbs else Int.ofNat e.natAbs) = e := by
      simp only [decide_eq_true_eq, Int.negOfNat_eq, Int.ofNat_eq_natCast]
      omega
    rw [Float.ofScientific, dif_neg h]
    dsimp only
    rw [he]
    show (⟨Float.Model.pack (UnpackedFloat.ofScientific Format.binary64 m e)⟩ : Float) = _
    rw [ofScientific_slow hc hq hm hi]

end

end Binary64

namespace Text.Numeral

open Binary64 Float.Model

variable {x : Float} {s : UnpackedFloat.Sign}

/-- A decimal in the interval of a value reads as the value. -/
theorem scientific_of_holds {n m : ℕ} {q e : ℤ} {hn : 0 < n} (hx : unpack x = .finite s n q hn) (hm : 0 < m)
    (hi : (Interval.ofMantissa n q).Holds (m * 10 ^ e)) : scientific (s == .negative) m e = x := by
  obtain ⟨hc, hq⟩ := canonical_of_unpack hx
  rw [scientific, ofScientific_of_holds hc hq hm hi]
  cases s with
  | positive => exact eq_of_unpack hx
  | negative =>
    have hneg : (Float.Model.pack (.finite .positive n q hc.pos)).unpack.neg = .finite .negative n q hn :=
      congrArg UnpackedFloat.neg (unpack_pack_finite hc hq)
    exact (congrArg (fun u => (⟨Float.Model.pack u⟩ : Float)) hneg).trans (eq_of_unpack hx)

theorem scientific_zero (hx : unpack x = .zero s) : scientific (s == .negative) 0 (-1) = x := by
  rw [← eq_of_unpack hx]
  cases s <;> rfl

end Text.Numeral

end InertialRelay
