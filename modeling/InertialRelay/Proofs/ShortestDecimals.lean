import InertialRelay.Proofs.Rounding

/-!
# Shortest decimals

The decimal that is printed for a value lies in the interval of the value (`shortest_holds`). A point that
the search returns was tested, so what has to be shown is that the search ends: on a grid finer than a quarter
of the unit of the value, the point below the value is in the interval, and the last of the grids is as fine.
-/

namespace InertialRelay.Binary64

/-- The number that a decimal writes. -/
def Decimal.value (d : Decimal) : ℚ := d.digits * 10 ^ d.exponent

theorem pow_toNat_eq {b : ℚ} (hb : b ≠ 0) (e : ℤ) : b ^ e.toNat = b ^ e * b ^ (-e).toNat := by
  rw [← zpow_natCast, ← zpow_natCast, ← zpow_add₀ hb]
  congr 1
  omega

namespace Interval
variable {i : Interval} {k : ℤ} {d n : ℕ}

/-- Both factors are multiples of the units that they stand for, and of the same size. -/
theorem exists_factors (i : Interval) (k : ℤ) :
    ∃ c : ℚ, 0 < c ∧ ((i.factors k).1 : ℚ) = 2 ^ i.exponent * c ∧ ((i.factors k).2 : ℚ) = 10 ^ k * c := by
  refine ⟨2 ^ (-i.exponent).toNat * 10 ^ (-k).toNat, by positivity, ?_, ?_⟩
  · have hfst : (i.factors k).1 = 2 ^ i.exponent.toNat * 10 ^ (-k).toNat := rfl
    rw [hfst]
    push_cast
    rw [pow_toNat_eq two_ne_zero]
    ring
  · have hsnd : (i.factors k).2 = 2 ^ (-i.exponent).toNat * 10 ^ k.toNat := rfl
    rw [hsnd]
    push_cast
    rw [pow_toNat_eq (b := 10) (by norm_num)]
    ring

theorem factors_le (i : Interval) (k : ℤ) (x d : ℕ) :
    x * (i.factors k).1 ≤ d * (i.factors k).2 ↔ (x : ℚ) * 2 ^ i.exponent ≤ d * 10 ^ k := by
  obtain ⟨c, hc, h1, h2⟩ := i.exists_factors k
  rw [← Nat.cast_le (α := ℚ), Nat.cast_mul, Nat.cast_mul, h1, h2, ← mul_assoc, ← mul_assoc]
  exact mul_le_mul_iff_left₀ hc

theorem le_factors (i : Interval) (k : ℤ) (x d : ℕ) :
    d * (i.factors k).2 ≤ x * (i.factors k).1 ↔ (d : ℚ) * 10 ^ k ≤ x * 2 ^ i.exponent := by
  obtain ⟨c, hc, h1, h2⟩ := i.exists_factors k
  rw [← Nat.cast_le (α := ℚ), Nat.cast_mul, Nat.cast_mul, h1, h2, ← mul_assoc, ← mul_assoc]
  exact mul_le_mul_iff_left₀ hc

theorem contains_iff : i.contains k d = true ↔ i.Holds (d * 10 ^ k) := by
  have hcontains : i.contains k d =
      if i.closed then decide (i.lower * (i.factors k).1 ≤ d * (i.factors k).2) &&
        decide (d * (i.factors k).2 ≤ i.upper * (i.factors k).1)
      else decide (i.lower * (i.factors k).1 < d * (i.factors k).2) &&
        decide (d * (i.factors k).2 < i.upper * (i.factors k).1) := rfl
  rw [hcontains, Holds]
  cases i.closed with
  | true => simp [factors_le, le_factors]
  | false => simp [← not_le, factors_le, le_factors]

theorem contains_of_nearest? (h : i.nearest? k = some d) : i.contains k d = true := by
  unfold nearest? at h
  dsimp only at h
  split at h
  · cases h
  · cases h; assumption
  · cases h; assumption
  · split at h <;> cases h <;> assumption

theorem contains_of_coarsest {r : Decimal} (h : i.coarsest n k = some r) :
    i.contains r.exponent r.digits = true := by
  induction n generalizing k with
  | zero => cases h
  | succ n ih =>
    rw [coarsest] at h
    split at h
    · next hd =>
      cases h
      exact contains_of_nearest? hd
    · exact ih h

/-- Once the grid is finer than the way from the value down to the lower end, it has a point in between. -/
theorem contains_below (hk : (10 : ℚ) ^ k ≤ 2 ^ i.exponent) (hlow : i.lower + 1 ≤ i.value)
    (hup : i.value < i.upper) : i.contains k (i.value * (i.factors k).1 / (i.factors k).2) = true := by
  obtain ⟨c, hc, h1, h2⟩ := i.exists_factors k
  have hb : 0 < (i.factors k).2 := by
    have : (0 : ℚ) < (i.factors k).2 := by rw [h2]; positivity
    exact_mod_cast this
  set d := i.value * (i.factors k).1 / (i.factors k).2 with hd
  have hle : (d : ℚ) * 10 ^ k ≤ i.value * 2 ^ i.exponent :=
    (i.le_factors k _ _).1 (Nat.div_mul_le_self _ _)
  have hlt : (i.value : ℚ) * 2 ^ i.exponent < (d + 1 : ℕ) * 10 ^ k := by
    rw [← not_le, ← i.le_factors, not_le]
    exact Nat.lt_mul_of_div_lt (Nat.lt_succ_self _) hb
  have hpow : (0 : ℚ) < 2 ^ i.exponent := by positivity
  have hlow' : (i.lower : ℚ) + 1 ≤ i.value := by exact_mod_cast hlow
  have hup' : (i.value : ℚ) < i.upper := by exact_mod_cast hup
  have h3 : (i.lower : ℚ) * 2 ^ i.exponent < d * 10 ^ k := by
    push_cast at hlt
    nlinarith
  have h4 : (d : ℚ) * 10 ^ k < i.upper * 2 ^ i.exponent :=
    lt_of_le_of_lt hle (mul_lt_mul_of_pos_right hup' hpow)
  rw [contains_iff, Holds]
  split
  · exact ⟨h3.le, h4.le⟩
  · exact ⟨h3, h4⟩

theorem nearest?_of_fine (hk : (10 : ℚ) ^ k ≤ 2 ^ i.exponent) (hlow : i.lower + 1 ≤ i.value)
    (hup : i.value < i.upper) : i.nearest? k ≠ none := by
  have hbelow := contains_below hk hlow hup
  unfold nearest?
  dsimp only
  split
  · next h _ => rw [hbelow] at h; cases h
  · nofun
  · nofun
  · split <;> nofun

theorem coarsest_ne_none {j : ℕ} (hj : j < n) (h : i.nearest? (k - j) ≠ none) : i.coarsest n k ≠ none := by
  induction n generalizing k j with
  | zero => cases hj
  | succ n ih =>
    rw [coarsest]
    split
    · nofun
    · next hk =>
      cases j with
      | zero =>
        rw [Nat.cast_zero, sub_zero] at h
        exact absurd hk h
      | succ j =>
        refine ih (Nat.lt_of_succ_lt_succ hj) (j := j) ?_
        rwa [show k - 1 - (j : ℤ) = k - (j + 1 : ℕ) by push_cast; ring]

end Interval

/-- Powers of ten against powers of two, from `2 ^ 195 ≤ 10 ^ 59 ≤ 2 ^ 196`. -/
theorem ten_zpow_le_two_zpow {k j : ℤ} (hpos : 0 ≤ k → 196 * k ≤ 59 * j) (hneg : k < 0 → 195 * k ≤ 59 * j) :
    (10 : ℚ) ^ k ≤ 2 ^ j := by
  have hpow : ∀ (b : ℚ) (i : ℤ), (b ^ i) ^ 59 = (b ^ 59) ^ i := fun b i => by
    rw [← zpow_natCast, ← zpow_natCast, ← zpow_mul, ← zpow_mul, mul_comm]
  have htwo : ∀ n : ℕ, ∀ i : ℤ, ((2 : ℚ) ^ n) ^ i = 2 ^ (n * i) := fun n i => by
    rw [← zpow_natCast, ← zpow_mul]
  rw [← pow_le_pow_iff_left₀ (by positivity) (by positivity) (show 59 ≠ 0 by decide), hpow, hpow, htwo 59]
  by_cases hk : 0 ≤ k
  · calc ((10 : ℚ) ^ 59) ^ k ≤ (2 ^ 196) ^ k := zpow_le_zpow_left₀ hk (by positivity) (by norm_num)
      _ = 2 ^ (((196 : ℕ) : ℤ) * k) := htwo 196 k
      _ ≤ 2 ^ (((59 : ℕ) : ℤ) * j) := zpow_le_zpow_right₀ one_le_two (hpos hk)
  · have hanti : ((10 : ℚ) ^ 59) ^ k ≤ (2 ^ 195) ^ k := by
      have hle : ((2 : ℚ) ^ 195) ^ (-k) ≤ (10 ^ 59) ^ (-k) :=
        zpow_le_zpow_left₀ (by omega) (by positivity) (by norm_num)
      rw [zpow_neg, zpow_neg] at hle
      exact (inv_le_inv₀ (by positivity) (by positivity)).1 hle
    calc ((10 : ℚ) ^ 59) ^ k ≤ (2 ^ 195) ^ k := hanti
      _ = 2 ^ (((195 : ℕ) : ℤ) * k) := htwo 195 k
      _ ≤ 2 ^ (((59 : ℕ) : ℤ) * j) := zpow_le_zpow_right₀ one_le_two (hneg (not_le.1 hk))

section
variable {m : ℕ} {e : ℤ}

theorem coarsest_shortest (hc : Canonical m e) (he : e ≤ maxExponent) :
    (Interval.ofMantissa m e).coarsest 22 (((m.log2 : ℤ) + e) * 30103 / 100000 + 2) ≠ none := by
  have hpos := hc.pos
  have hge := hc.ge
  have hlog : m.log2 ≤ 52 := log2_le_of_lt hc.lt
  simp only [maxExponent] at he
  -- the last grid will do: 21 steps below the first, it is finer than a quarter of the unit
  refine Interval.coarsest_ne_none (j := 21) (by norm_num) (Interval.nearest?_of_fine ?_ ?_ ?_)
  · refine ten_zpow_le_two_zpow ?_ ?_
    · show _ → _ ≤ 59 * (e - 2)
      omega
    · show _ → _ ≤ 59 * (e - 2)
      omega
  · show 4 * m - (if m = twoTo 52 ∧ -1074 < e then 1 else 2) + 1 ≤ 4 * m
    split <;> omega
  · show 4 * m < 4 * m + 2
    omega

theorem contains_shortest (hc : Canonical m e) (he : e ≤ maxExponent) :
    (Interval.ofMantissa m e).contains (shortest m e).exponent (shortest m e).digits = true := by
  cases h : (Interval.ofMantissa m e).coarsest 22 (((m.log2 : ℤ) + e) * 30103 / 100000 + 2) with
  | none => exact absurd h (coarsest_shortest hc he)
  | some r =>
    have hr : shortest m e = r := by
      show Option.getD _ _ = r
      rw [h]
      rfl
    rw [hr]
    exact Interval.contains_of_coarsest h

theorem shortest_holds (hc : Canonical m e) (he : e ≤ maxExponent) :
    (Interval.ofMantissa m e).Holds (shortest m e).value :=
  Interval.contains_iff.1 (contains_shortest hc he)

theorem Interval.pos_of_holds {v : ℚ} (hm : 0 < m) (h : (ofMantissa m e).Holds v) : 0 < v := by
  have hpow : (0 : ℚ) < 2 ^ e := by positivity
  have hone : (1 : ℚ) ≤ m := by exact_mod_cast hm
  have hge := (nearest_of_holds hm h).ge
  have hdiv : 0 < v / 2 ^ e := by linarith
  exact (div_pos_iff_of_pos_right hpow).1 hdiv

theorem shortest_digits_pos (hc : Canonical m e) (he : e ≤ maxExponent) : 0 < (shortest m e).digits := by
  have hv := Interval.pos_of_holds hc.pos (shortest_holds hc he)
  by_contra h
  rw [Decimal.value, Nat.eq_zero_of_not_pos h, Nat.cast_zero, zero_mul] at hv
  exact lt_irrefl _ hv

end

end InertialRelay.Binary64
