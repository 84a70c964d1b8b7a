import InertialRelay.Binary64.Shortest
import InertialRelay.Proofs.Halving
import Mathlib.Algebra.Order.Field.Power
import Mathlib.Tactic.FieldSimp
import Mathlib.Tactic.Linarith
import Mathlib.Tactic.NormNum
import Mathlib.Tactic.Positivity
import Mathlib.Tactic.Ring

/-!
# Rounding to the nearest value

A result is computed as a mantissa with residual bits. `Covers` says which numbers these bits stand for and is
kept by a shift. What rounding makes of the number is then a matter of the nearest integer alone
(`roundWithAccuracy_eq`), and every number in the interval of a value rounds to the value
(`roundWithAccuracy_of_holds`).
-/

namespace InertialRelay.Binary64

open Float.Model Float.Model.UnpackedFloat

/-! ### Residual bits -/

/-- What a mantissa and its residual bits say of the number that was cut off. -/
def Covers (em : ExtendedMantissa) (v : ℚ) : Prop :=
  match em.roundBit, em.stickyBit with
  | false, false => v = em.mantissa
  | false, true => em.mantissa < v ∧ v < em.mantissa + 1 / 2
  | true, false => v = em.mantissa + 1 / 2
  | true, true => em.mantissa + 1 / 2 < v ∧ v < em.mantissa + 1

/-- The integer nearest to `v`; of two of them the even one. -/
structure Nearest (n : ℕ) (v : ℚ) : Prop where
  ge : (n : ℚ) - 1 / 2 ≤ v
  le : v ≤ n + 1 / 2
  even : v = n - 1 / 2 ∨ v = n + 1 / 2 → n % 2 = 0

theorem Nearest.unique {n k : ℕ} {v : ℚ} (hn : Nearest n v) (hk : Nearest k v) : n = k := by
  have hnk : (n : ℚ) ≤ k + 1 := by linarith [hn.ge, hk.le]
  have hkn : (k : ℚ) ≤ n + 1 := by linarith [hk.ge, hn.le]
  norm_cast at hnk hkn
  by_contra hne
  -- two different ones lie at half a unit on either side, so both are even
  rcases Nat.lt_or_gt_of_ne hne with h | h
  · have hsucc : k = n + 1 := by omega
    subst hsucc
    have hv : v = n + 1 / 2 := le_antisymm hn.le (by have := hk.ge; push_cast at this; linarith)
    have h1 := hn.even (.inr hv)
    have h2 := hk.even (.inl (by rw [hv]; push_cast; ring))
    omega
  · have hsucc : n = k + 1 := by omega
    subst hsucc
    have hv : v = k + 1 / 2 := le_antisymm hk.le (by have := hn.ge; push_cast at this; linarith)
    have h1 := hk.even (.inr hv)
    have h2 := hn.even (.inl (by rw [hv]; push_cast; ring))
    omega

namespace Covers
variable {em : ExtendedMantissa} {v : ℚ}

theorem le (h : Covers em v) : (em.mantissa : ℚ) ≤ v := by
  rcases em with ⟨m, _ | _, _ | _⟩ <;> simp only [Covers] at h ⊢ <;> linarith

theorem lt (h : Covers em v) : v < em.mantissa + 1 := by
  rcases em with ⟨m, _ | _, _ | _⟩ <;> simp only [Covers] at h ⊢ <;> linarith

theorem shiftRightOne (h : Covers em v) : Covers em.shiftRightOne (v / 2) := by
  have hle := h.le
  have hlt := h.lt
  obtain ⟨m, r, s⟩ := em
  have hm : (m : ℚ) = 2 * (m / 2 : ℕ) + (m % 2 : ℕ) := by exact_mod_cast (Nat.div_add_mod m 2).symm
  rcases Nat.mod_two_eq_zero_or_one m with hp | hp <;> rw [hp] at hm <;> push_cast at hm <;>
    cases r <;> cases s <;>
    simp [Covers, ExtendedMantissa.shiftRightOne, hp] at h hle hlt ⊢ <;>
    (try constructor) <;> linarith

theorem shiftRight (h : Covers em v) (k : ℕ) : Covers (em >>> k) (v / 2 ^ k) := by
  induction k with
  | zero => rwa [pow_zero, div_one]
  | succ k ih =>
    have hk := ih.shiftRightOne
    rwa [div_div, ← pow_succ] at hk

theorem nearest (h : Covers em v) : Nearest em.roundedMantissa v := by
  obtain ⟨m, r, s⟩ := em
  cases r <;> cases s <;>
    simp only [Covers, ExtendedMantissa.roundedMantissa, ExtendedMantissa.accuracy,
      Accuracy.roundToNearestEven] at h ⊢
  · exact ⟨by linarith, by linarith, by rintro (h | h) <;> linarith⟩
  · exact ⟨by linarith, by linarith, by rintro (h | h) <;> linarith⟩
  · rcases Nat.mod_two_eq_zero_or_one m with hp | hp
    · rw [hp, Nat.add_zero]
      exact ⟨by linarith, by linarith, fun _ => hp⟩
    · rw [hp]
      exact ⟨by push_cast; linarith, by push_cast; linarith, fun _ => by omega⟩
  · refine ⟨by push_cast; linarith, by push_cast; linarith, ?_⟩
    push_cast
    rintro (h | h) <;> linarith

theorem nearest_shiftRight {e t : ℤ} (h : Covers em v) (het : e ≤ t) :
    Nearest (em >>> (t - e).toNat).roundedMantissa (v * 2 ^ (e - t)) := by
  have hpow : v / 2 ^ (t - e).toNat = v * 2 ^ (e - t) := by
    rw [div_eq_mul_inv, ← zpow_natCast, ← zpow_neg]
    congr 2
    omega
  exact hpow ▸ (h.shiftRight (t - e).toNat).nearest

end Covers

/-! ### The result of rounding -/

/-- A finite magnitude with a sign, which is a zero where there is no mantissa. -/
def sized (s : Sign) (m : ℕ) (e : ℤ) : UnpackedFloat :=
  if h : m = 0 then .zero s else .finite s m e (Nat.pos_of_ne_zero h)

section
variable {s : Sign} {m n : ℕ} {e t k : ℤ} {a : Accuracy} {v : ℚ}

theorem sized_of_pos (hm : 0 < m) : sized s m e = .finite s m e hm := dif_neg (Nat.pos_iff_ne_zero.1 hm)

theorem shiftToTargetExponent_fst (m : ℕ) (e : ℤ) (a : Accuracy) :
    (shiftToTargetExponent Format.binary64 m e a).1 =
      ExtendedMantissa.ofMantissaAndAccuracy m a >>>
        (Format.binary64.targetExponent (totalExponent m e) - e).toNat := rfl

theorem shift_exact (hn : n ≤ 2 ^ 53) (ht : -1074 ≤ t) :
    sized s (shiftToTargetExponent Format.binary64 n t .exact).1.mantissa
        (shiftToTargetExponent Format.binary64 n t .exact).2 =
      if n = 2 ^ 53 then sized s (2 ^ 52) (t + 1) else sized s n t := by
  rw [shiftToTargetExponent_mantissa, shiftToTargetExponent_snd]
  simp only [targetExponent_eq, totalExponent]
  by_cases h : n = 2 ^ 53
  · rw [if_pos h, h, Nat.log2_two_pow]
    congr 1
    · rw [show (max (((53 : ℕ) : ℤ) + 1 + t - 53) (-1074) - t).toNat = 1 by omega]
      rfl
    · omega
  · have hlog : n.log2 ≤ 52 := log2_le_of_lt (by omega)
    rw [if_neg h]
    congr 1
    · rw [show (max ((n.log2 : ℤ) + 1 + t - 53) (-1074) - t).toNat = 0 by omega, pow_zero, Nat.div_one]
    · omega

/-- What is left of a number after rounding, from the integer next to it in units of `2 ^ t`. -/
theorem roundWithAccuracy_eq (ht : Format.binary64.targetExponent (totalExponent m e) = t) (he : e ≤ t)
    (hv : Covers (.ofMantissaAndAccuracy m a) v) (hn : Nearest n (v * 2 ^ (e - t))) :
    roundWithAccuracy Format.binary64 s m e a =
      if n = 2 ^ 53 then sized s (2 ^ 52) (t + 1) else sized s n t := by
  have hr : (shiftToTargetExponent Format.binary64 m e a).1.roundedMantissa = n := by
    rw [shiftToTargetExponent_fst, ht]
    exact (hv.nearest_shiftRight he).unique hn
  have hle : n ≤ 2 ^ 53 := by
    have h1 := roundedMantissa_le (shiftToTargetExponent Format.binary64 m e a).1
    have h2 : m / 2 ^ (t - e).toNat < 2 ^ 53 := by
      rw [Nat.div_lt_iff_lt_mul (Nat.two_pow_pos _), ← Nat.pow_add]
      rw [targetExponent_eq, totalExponent] at ht
      exact lt_of_lt_of_le Nat.lt_log2_self (Nat.pow_le_pow_right Nat.two_pos (by omega))
    rw [hr, shiftToTargetExponent_mantissa, ht] at h1
    omega
  have hsnd : (shiftToTargetExponent Format.binary64 m e a).2 = t := by
    rw [shiftToTargetExponent_snd, ht, max_eq_right he]
  have htmin : -1074 ≤ t := by rw [← ht, targetExponent_eq]; exact le_max_right _ _
  have hround := shift_exact (s := s) hle htmin
  rw [← hround, ← hr, ← hsnd]
  rfl

/-! ### The interval of a value -/

/-- The form that a finite value has once it is unpacked, but for the bound on its exponent. -/
structure Canonical (m : ℕ) (e : ℤ) : Prop where
  pos : 0 < m
  lt : m < 2 ^ 53
  ge : -1074 ≤ e
  normal : -1074 < e → 2 ^ 52 ≤ m

/-- Whether a number lies in an interval. -/
def Interval.Holds (i : Interval) (v : ℚ) : Prop :=
  if i.closed then i.lower * 2 ^ i.exponent ≤ v ∧ v ≤ i.upper * 2 ^ i.exponent
  else i.lower * 2 ^ i.exponent < v ∧ v < i.upper * 2 ^ i.exponent

namespace Interval

theorem holds_ofMantissa (m : ℕ) (e : ℤ) (v : ℚ) :
    (ofMantissa m e).Holds v ↔
      if m % 2 = 0 then (ofMantissa m e).lower / 4 ≤ v / 2 ^ e ∧ v / 2 ^ e ≤ m + 1 / 2
      else (ofMantissa m e).lower / 4 < v / 2 ^ e ∧ v / 2 ^ e < m + 1 / 2 := by
  have hpow : (0 : ℚ) < 2 ^ e := by positivity
  have hexp : (2 : ℚ) ^ (ofMantissa m e).exponent = 2 ^ e / 4 := by
    show (2 : ℚ) ^ (e - 2) = _
    rw [zpow_sub₀ two_ne_zero]
    norm_num
  have hup : ((ofMantissa m e).upper : ℚ) = 4 * m + 2 := by
    show ((4 * m + 2 : ℕ) : ℚ) = _
    push_cast
    ring
  have hclosed : (ofMantissa m e).closed = decide (m % 2 = 0) := rfl
  unfold Holds
  rw [hexp, hup, hclosed]
  simp only [decide_eq_true_eq, le_div_iff₀ hpow, div_le_iff₀ hpow, lt_div_iff₀ hpow, div_lt_iff₀ hpow]
  ring_nf

theorem lower_ofMantissa {m : ℕ} (hm : 0 < m) (h : ¬(m = 2 ^ 52 ∧ -1074 < e)) :
    ((ofMantissa m e).lower : ℚ) = 4 * m - 2 := by
  show ((4 * m - (if m = 2 ^ 52 ∧ -1074 < e then 1 else 2) : ℕ) : ℚ) = _
  rw [if_neg h, Nat.cast_sub (by omega)]
  push_cast
  ring

theorem lower_ofMantissa_power (h : -1074 < e) : ((ofMantissa (2 ^ 52) e).lower : ℚ) = 4 * 2 ^ 52 - 1 := by
  show ((4 * 2 ^ 52 - (if 2 ^ 52 = 2 ^ 52 ∧ -1074 < e then 1 else 2) : ℕ) : ℚ) = _
  rw [if_pos ⟨rfl, h⟩]
  norm_num

theorem lower_ge {m : ℕ} (hm : 0 < m) : (4 * m - 2 : ℚ) ≤ (ofMantissa m e).lower := by
  by_cases h : m = 2 ^ 52 ∧ -1074 < e
  · obtain ⟨rfl, he⟩ := h
    rw [lower_ofMantissa_power he]
    norm_num
  · rw [lower_ofMantissa hm h]

theorem nearest_of_holds {m : ℕ} (hm : 0 < m) (h : (ofMantissa m e).Holds v) : Nearest m (v / 2 ^ e) := by
  have hlow := lower_ge (e := e) hm
  rw [holds_ofMantissa] at h
  split at h
  · next hp => exact ⟨by linarith, by linarith, fun _ => hp⟩
  · exact ⟨by linarith, by linarith, by rintro (h | h) <;> linarith⟩

end Interval

theorem mantissa_ofMantissaAndAccuracy (m : ℕ) (a : Accuracy) :
    (ExtendedMantissa.ofMantissaAndAccuracy m a).mantissa = m := by
  rcases a with - | (- | - | -) <;> rfl

/-- A mantissa asks for no larger exponent than the number that it was cut off from. -/
theorem log2_add_lt (hv : Covers (.ofMantissaAndAccuracy m a) v) (hm : m ≠ 0) (hk : v * 2 ^ e < 2 ^ k) :
    (m.log2 : ℤ) + e < k := by
  have hpow : (0 : ℚ) < 2 ^ e := by positivity
  have hlog : ((2 : ℚ) ^ m.log2) ≤ m := by exact_mod_cast Nat.log2_self_le hm
  have hle := hv.le
  rw [mantissa_ofMantissaAndAccuracy] at hle
  have hlt : (2 : ℚ) ^ ((m.log2 : ℤ) + e) < 2 ^ k := by
    rw [zpow_add₀ two_ne_zero, zpow_natCast]
    exact lt_of_le_of_lt (mul_le_mul_of_nonneg_right (hlog.trans hle) hpow.le) hk
  exact (zpow_lt_zpow_iff_right₀ one_lt_two).1 hlt

theorem le_log2_add (hv : Covers (.ofMantissaAndAccuracy m a) v) (hek : e ≤ k)
    (hk : (2 : ℚ) ^ k ≤ v * 2 ^ e) : k ≤ (m.log2 : ℤ) + e := by
  have hpow : (0 : ℚ) < 2 ^ e := by positivity
  obtain ⟨d, rfl⟩ := Int.le.dest hek
  have hle : 2 ^ d ≤ m := by
    have hlt := hv.lt
    rw [mantissa_ofMantissaAndAccuracy] at hlt
    rw [zpow_add₀ two_ne_zero, zpow_natCast, mul_comm] at hk
    have h1 : (2 : ℚ) ^ d < m + 1 := lt_of_le_of_lt (le_of_mul_le_mul_right hk hpow) hlt
    exact Nat.lt_succ_iff.1 (by exact_mod_cast h1)
  have hlog : d ≤ m.log2 :=
    (Nat.le_log2 (Nat.pos_iff_ne_zero.1 (lt_of_lt_of_le (Nat.two_pow_pos d) hle))).2 hle
  omega

/-- The exponent that a number asks for, whatever the unit in which its mantissa was cut off. -/
theorem targetExponent_of_range (hv : Covers (.ofMantissaAndAccuracy m a) v)
    (he : e ≤ Format.binary64.targetExponent (totalExponent m e)) (ht : -1074 ≤ t)
    (hlow : t = -1074 ∨ (2 : ℚ) ^ (t + 52) ≤ v * 2 ^ e) (hhigh : v * 2 ^ e < 2 ^ (t + 53)) :
    Format.binary64.targetExponent (totalExponent m e) = t := by
  rw [targetExponent_eq, totalExponent] at he ⊢
  by_cases hm : m = 0
  · rw [hm, Nat.log2_zero] at he ⊢
    rcases hlow with rfl | hlow
    · omega
    · have hle := le_log2_add hv (by omega) hlow
      rw [hm, Nat.log2_zero] at hle
      omega
  · have hlt := log2_add_lt hv hm hhigh
    rcases hlow with rfl | hlow
    · omega
    · have hle := le_log2_add hv (by omega) hlow
      omega

theorem two_zpow_add (q : ℤ) (n : ℕ) [n.AtLeastTwo] :
    (2 : ℚ) ^ (q + (OfNat.ofNat n : ℤ)) = 2 ^ (OfNat.ofNat n : ℕ) * 2 ^ q := by
  rw [zpow_add₀ two_ne_zero, zpow_ofNat, mul_comm]

theorem mul_zpow_sub (v : ℚ) (e t : ℤ) : v * 2 ^ (e - t) = v * 2 ^ e / 2 ^ t := by
  rw [zpow_sub₀ two_ne_zero, mul_div_assoc]

/-- Below a power of two the unit is half as large, and what is in the interval of the power rounds up to it. -/
theorem roundWithAccuracy_below_power {q : ℤ} (hq : -1074 < q)
    (he : e ≤ Format.binary64.targetExponent (totalExponent m e))
    (hv : Covers (.ofMantissaAndAccuracy m a) v) (hlt : v * 2 ^ e < 2 ^ (q + 52))
    (hi : (Interval.ofMantissa (2 ^ 52) q).Holds (v * 2 ^ e)) :
    roundWithAccuracy Format.binary64 s m e a = sized s (2 ^ 52) q := by
  have hpow : (0 : ℚ) < 2 ^ q := by positivity
  have hx : v * 2 ^ e / 2 ^ q < 2 ^ 52 := by
    rwa [div_lt_iff₀ hpow, ← two_zpow_add]
  have hquarter : (2 ^ 52 - 1 / 4 : ℚ) ≤ v * 2 ^ e / 2 ^ q := by
    rw [Interval.holds_ofMantissa, Interval.lower_ofMantissa_power hq, if_pos (by decide)] at hi
    linarith [hi.1]
  have hhalf : v * 2 ^ e / 2 ^ (q - 1) = 2 * (v * 2 ^ e / 2 ^ q) := by
    rw [zpow_sub_one₀ two_ne_zero]
    field_simp
  have ht : Format.binary64.targetExponent (totalExponent m e) = q - 1 := by
    refine targetExponent_of_range hv he (by omega) (.inr ?_) ?_
    · rw [show q - 1 + 52 = q + 51 by ring, two_zpow_add, ← le_div_iff₀ hpow]
      linarith
    · rwa [show q - 1 + 53 = q + 52 by ring]
  have hnear : Nearest (2 ^ 53) (v * 2 ^ (e - (q - 1))) := by
    rw [mul_zpow_sub, hhalf]
    refine ⟨?_, ?_, fun _ => by decide⟩
    · push_cast
      linarith
    · push_cast
      linarith
  rw [roundWithAccuracy_eq ht (ht ▸ he) hv hnear, if_pos rfl, sub_add_cancel]

/-- Every number in the interval of a value rounds to the value. -/
theorem roundWithAccuracy_of_holds {q : ℤ} (hc : Canonical n q)
    (he : e ≤ Format.binary64.targetExponent (totalExponent m e))
    (hv : Covers (.ofMantissaAndAccuracy m a) v) (hi : (Interval.ofMantissa n q).Holds (v * 2 ^ e)) :
    roundWithAccuracy Format.binary64 s m e a = .finite s n q hc.pos := by
  have hpow : (0 : ℚ) < 2 ^ q := by positivity
  have hnear := Interval.nearest_of_holds hc.pos hi
  by_cases hlow : q = -1074 ∨ (2 : ℚ) ^ (q + 52) ≤ v * 2 ^ e
  · have hhigh : v * 2 ^ e < 2 ^ (q + 53) := by
      have hn : (n : ℚ) + 1 ≤ 2 ^ 53 := by exact_mod_cast hc.lt
      have hle := hnear.le
      rw [div_le_iff₀ hpow] at hle
      rw [two_zpow_add]
      exact lt_of_le_of_lt hle (mul_lt_mul_of_pos_right (by linarith) hpow)
    have ht := targetExponent_of_range hv he hc.ge hlow hhigh
    rw [← mul_zpow_sub] at hnear
    rw [roundWithAccuracy_eq ht (ht ▸ he) hv hnear, if_neg (Nat.ne_of_lt hc.lt), sized_of_pos hc.pos]
  · obtain ⟨hbottom, hbelow⟩ := not_or.1 hlow
    have hq : -1074 < q := lt_of_le_of_ne hc.ge (Ne.symm hbottom)
    have hlt : v * 2 ^ e < 2 ^ (q + 52) := not_le.1 hbelow
    -- the mantissa has full length and lies less than one above a number below `2 ^ 52`
    have hn : n = 2 ^ 52 := by
      have hx : v * 2 ^ e / 2 ^ q < 2 ^ 52 := by
        rwa [div_lt_iff₀ hpow, ← two_zpow_add]
      have h1 : (n : ℚ) < 2 ^ 52 + 1 := by linarith [hnear.ge]
      have h2 : n < 2 ^ 52 + 1 := by exact_mod_cast h1
      exact Nat.le_antisymm (Nat.lt_succ_iff.1 h2) (hc.normal hq)
    subst hn
    rw [roundWithAccuracy_below_power hq he hv hlt hi, sized_of_pos hc.pos]

end

end InertialRelay.Binary64
