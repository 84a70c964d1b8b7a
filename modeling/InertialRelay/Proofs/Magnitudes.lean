import InertialRelay.Proofs.Overflow

/-!
# Magnitudes of sums and products

The exponent of a result is bounded by the exponents of its parts (`within_add`, `within_mul`), so a sum of products
whose parts are small enough is finite. In the other direction a part that is not finite is never lost: a finite sum or
product has finite parts (`isFinite_of_add`, `isFinite_of_mul`).
-/

namespace InertialRelay.Binary64

open Float.Model Float.Model.UnpackedFloat

/-! ### Parts of a finite result -/

section
variable {u w : UnpackedFloat} {x y : Float}

theorem isFinite_of_pack (h : (Float.Model.pack u).unpack.isFinite = true) : u.isFinite = true := by
  cases u with
  | infinity s => cases s <;> cases h
  | notANumber => cases h
  | zero s => rfl
  | finite s m e hm => rfl

theorem isFinite_of_unpacked_add (h : (UnpackedFloat.add Format.binary64 u w).isFinite = true) :
    u.isFinite = true ∧ w.isFinite = true := by
  rcases u with s | _ | s | ⟨s, m, e, hm⟩ <;> rcases w with s' | _ | s' | ⟨s', m', e', hm'⟩
  case infinity.infinity => cases s <;> cases s' <;> cases h
  all_goals first | exact ⟨rfl, rfl⟩ | cases h

theorem isFinite_of_unpacked_mul (h : (UnpackedFloat.mul Format.binary64 u w).isFinite = true) :
    u.isFinite = true ∧ w.isFinite = true := by
  rcases u with s | _ | s | ⟨s, m, e, hm⟩ <;> rcases w with s' | _ | s' | ⟨s', m', e', hm'⟩
  all_goals first | exact ⟨rfl, rfl⟩ | cases h

theorem isFinite_of_add (h : (x + y).isFinite = true) : x.isFinite = true ∧ y.isFinite = true :=
  isFinite_of_unpacked_add (isFinite_of_pack h)

theorem isFinite_of_mul (h : (x * y).isFinite = true) : x.isFinite = true ∧ y.isFinite = true :=
  isFinite_of_unpacked_mul (isFinite_of_pack h)

end

/-! ### Bounds on exponents -/

/-- Zero, or finite with an exponent of at most `k`. -/
def Within (k : ℤ) : UnpackedFloat → Prop
  | .zero _ => True
  | .finite _ _ e _ => e ≤ k
  | .infinity _ | .notANumber => False

instance (k : ℤ) : DecidablePred (Within k)
  | .zero _ => .isTrue trivial
  | .finite _ _ e _ => inferInstanceAs (Decidable (e ≤ k))
  | .infinity _ | .notANumber => .isFalse id

section
variable {s s₁ s₂ : Sign} {m n m₁ m₂ : ℕ} {e t j k l e₁ e₂ : ℤ} {h₁ : 0 < m₁} {h₂ : 0 < m₂} {v : ℚ}
variable {u : UnpackedFloat} {x y : Float}

theorem Within.mono (h : Within j u) (hjk : j ≤ k) : Within k u := by
  cases u with
  | zero s => trivial
  | finite s m e hm => exact le_trans h hjk
  | infinity s => exact h
  | notANumber => exact h

theorem Within.cases (h : Within k u) :
    (∃ s, u = .zero s) ∨ ∃ s m e hm, u = .finite s m e hm ∧ e ≤ k := by
  cases u with
  | zero s => exact .inl ⟨s, rfl⟩
  | finite s m e hm => exact .inr ⟨s, m, e, hm, rfl, h⟩
  | infinity s => exact h.elim
  | notANumber => exact h.elim

theorem Within.isFinite (h : Within k (unpack x)) : x.isFinite = true := by
  show (unpack x).isFinite = true
  obtain ⟨s, hx⟩ | ⟨s, m, e, hm, hx, -⟩ := h.cases
  · rw [hx]
    rfl
  · rw [hx]
    rfl

theorem within_of_isFinite (h : x.isFinite = true) : Within maxExponent (unpack x) := by
  have hu : (unpack x).isFinite = true := h
  cases hx : unpack x with
  | zero s => trivial
  | finite s m e hm => exact (canonical_of_unpack hx).2
  | infinity s =>
    rw [hx] at hu
    cases hu
  | notANumber =>
    rw [hx] at hu
    cases hu

theorem within_pack_zero (s : Sign) : Within k (Float.Model.pack (.zero s)).unpack := by
  cases s <;> trivial

theorem within_pack_sized (hc : 0 < m → Canonical m e) (he : e ≤ maxExponent) :
    Within e (Float.Model.pack (sized s m e)).unpack := by
  rcases Nat.eq_zero_or_pos m with rfl | hm
  · rw [sized, dif_pos rfl]
    exact within_pack_zero s
  · rw [sized_of_pos hm]
    show Within e (UnpackedFloat.unpack Format.binary64 (UnpackedFloat.pack Format.binary64 (.finite s m e hm)))
    rw [unpack_pack_finite (hc hm) he]
    exact le_refl e

theorem RoundsTo.within (h : RoundsTo v n t) (ht : t + 1 ≤ maxExponent) :
    Within (t + 1) (Float.Model.pack (carried s n t)).unpack := by
  have hge := h.bottom
  unfold carried
  split
  next hn => exact within_pack_sized (fun hpos => ⟨hpos, by norm_num, by omega, fun _ => le_rfl⟩) ht
  next hn =>
    have hcanonical (hpos : 0 < n) : Canonical n t := ⟨hpos, lt_of_le_of_ne h.le_full hn, hge, h.full_le⟩
    exact (within_pack_sized hcanonical (by omega)).mono (by omega)

/-- Rounding leaves the exponent that a mantissa asks for or, after a carry, the next one. -/
theorem within_roundWithAccuracy (he : e ≤ Format.binary64.targetExponent (totalExponent m e))
    (hk : Format.binary64.targetExponent (totalExponent m e) + 1 ≤ k) (hmax : k ≤ maxExponent) :
    Within k (Float.Model.pack (roundWithAccuracy Format.binary64 s m e .exact)).unpack := by
  have hv : Covers (.ofMantissaAndAccuracy m .exact) m := rfl
  obtain ⟨n, h, hround⟩ := exists_roundsTo (s := s) he hv
  rw [hround]
  exact (h.within (hk.trans hmax)).mono hk

theorem log2_shiftLeft (hm : 0 < m) (d : ℕ) : (m <<< d).log2 = m.log2 + d := by
  refine (Nat.log2_eq_iff (shiftLeft_pos hm d).ne').2 ⟨?_, ?_⟩
  · rw [Nat.shiftLeft_eq, Nat.pow_add]
    exact Nat.mul_le_mul_right _ (Nat.log2_self_le hm.ne')
  · rw [Nat.shiftLeft_eq, Nat.add_right_comm, Nat.pow_add]
    exact Nat.mul_lt_mul_of_pos_right Nat.lt_log2_self (Nat.two_pow_pos d)

theorem within_round (hm : 0 < m) (hk : Format.binary64.targetExponent (totalExponent m e) + 1 ≤ k)
    (hmax : k ≤ maxExponent) : Within k (Float.Model.pack (UnpackedFloat.round Format.binary64 s m e)).unpack := by
  dsimp only [UnpackedFloat.round, decreaseExponent]
  set t := Format.binary64.targetExponent (totalExponent m e) with ht
  -- moving bits from the exponent to the mantissa does not change what the mantissa asks for
  have htotal : totalExponent (m <<< (e - t).toNat) (e - (e - t).toNat) = totalExponent m e := by
    rw [totalExponent, totalExponent, log2_shiftLeft hm]
    omega
  refine within_roundWithAccuracy ?_ ?_ hmax
  · rw [htotal, ← ht]
    omega
  · rw [htotal, ← ht]
    exact hk

/-! ### Sums -/

theorem shiftLeft_lt (hc : Canonical m e) (he : e ≤ k) :
    m <<< (e - t).toNat < 2 ^ (53 + (k - t).toNat) := by
  rw [Nat.shiftLeft_eq, Nat.pow_add]
  exact Nat.mul_lt_mul_of_lt_of_le hc.lt (Nat.pow_le_pow_right Nat.two_pos (by omega)) (Nat.two_pow_pos _)

theorem natAbs_apply (s : Sign) (m : ℕ) : (s.apply m).natAbs = m := by
  cases s
  · exact (Int.natAbs_neg _).trans (Int.natAbs_natCast m)
  · exact Int.natAbs_natCast m

theorem within_normalize {i : ℤ} (hi : i.natAbs < 2 ^ (53 + (k - t).toNat + 1)) (ht : t ≤ k) (hk : -1074 ≤ k)
    (hmax : k + 2 ≤ maxExponent) :
    Within (k + 2) (Float.Model.pack (UnpackedFloat.normalize Format.binary64 i t .positive)).unpack := by
  have hround (n : ℕ) (s : Sign) (hn : 0 < n) (hlt : n < 2 ^ (53 + (k - t).toNat + 1)) :
      Within (k + 2) (Float.Model.pack (UnpackedFloat.round Format.binary64 s n t)).unpack := by
    have hlog := log2_le_of_lt hlt
    refine within_round hn ?_ hmax
    rw [targetExponent_eq, totalExponent]
    omega
  unfold UnpackedFloat.normalize
  cases hcmp : compare i 0 with
  | lt =>
    have hneg := Int.compare_eq_lt.1 hcmp
    exact hround _ _ (by omega) (by omega)
  | eq => exact within_pack_zero _
  | gt =>
    have hpos := Int.compare_eq_gt.1 hcmp
    exact hround _ _ (by omega) (by omega)

theorem within_add (hx : Within k (unpack x)) (hy : Within k (unpack y)) (hlow : -1074 ≤ k)
    (hmax : k + 2 ≤ maxExponent) : Within (k + 2) (unpack (x + y)) := by
  show Within (k + 2) (Float.Model.pack (UnpackedFloat.add Format.binary64 (unpack x) (unpack y))).unpack
  obtain ⟨s₁, hux⟩ | ⟨s₁, m₁, e₁, h₁, hux, hx'⟩ := hx.cases
  · rw [hux]
    obtain ⟨s₂, huy⟩ | ⟨s₂, m₂, e₂, h₂, huy, -⟩ := hy.cases
    · rw [huy]
      cases s₁ <;> cases s₂ <;> trivial
    · rw [huy]
      show Within (k + 2) (unpack ⟨Float.Model.pack (.finite s₂ m₂ e₂ h₂)⟩)
      rw [eq_of_unpack huy]
      exact hy.mono (by omega)
  · obtain ⟨s₂, huy⟩ | ⟨s₂, m₂, e₂, h₂, huy, hy'⟩ := hy.cases
    · rw [hux, huy]
      show Within (k + 2) (unpack ⟨Float.Model.pack (.finite s₁ m₁ e₁ h₁)⟩)
      rw [eq_of_unpack hux]
      exact hx.mono (by omega)
    · rw [hux, huy]
      have hlt₁ := shiftLeft_lt (t := min e₁ e₂) (canonical_of_unpack hux).1 hx'
      have hlt₂ := shiftLeft_lt (t := min e₁ e₂) (canonical_of_unpack huy).1 hy'
      refine within_normalize ?_ ((min_le_left e₁ e₂).trans hx') hlow hmax
      refine lt_of_le_of_lt (Int.natAbs_add_le _ _) ?_
      rw [natAbs_apply, natAbs_apply, Nat.pow_succ]
      omega

/-! ### Products -/

theorem within_unpacked_mul (hc₁ : Canonical m₁ e₁) (hc₂ : Canonical m₂ e₂) (hk : e₁ + e₂ + 54 ≤ k)
    (hlow : -1073 ≤ k) (hmax : k ≤ maxExponent) :
    Within k (Float.Model.pack
      (UnpackedFloat.mul Format.binary64 (.finite s₁ m₁ e₁ h₁) (.finite s₂ m₂ e₂ h₂))).unpack := by
  have hge₁ := hc₁.ge
  have hge₂ := hc₂.ge
  have hhigh : (m₁ * m₂).log2 ≤ 105 := by
    refine log2_le_of_lt ?_
    calc m₁ * m₂ < 2 ^ 53 * 2 ^ 53 := Nat.mul_lt_mul_of_lt_of_lt hc₁.lt hc₂.lt
      _ = 2 ^ (105 + 1) := by norm_num
  have hfull (h : -1074 < e₁ ∨ -1074 < e₂) : 52 ≤ (m₁ * m₂).log2 := by
    refine (Nat.le_log2 (Nat.mul_ne_zero h₁.ne' h₂.ne')).2 ?_
    rcases h with h | h
    · exact (hc₁.normal h).trans (Nat.le_mul_of_pos_right _ h₂)
    · exact (hc₂.normal h).trans (Nat.le_mul_of_pos_left _ h₁)
  refine within_roundWithAccuracy ?_ ?_ hmax
  · rw [targetExponent_eq, totalExponent]
    omega
  · rw [targetExponent_eq, totalExponent]
    omega

theorem within_mul (hx : Within j (unpack x)) (hy : Within k (unpack y)) (hk : j + k + 54 ≤ l)
    (hlow : -1073 ≤ l) (hmax : l ≤ maxExponent) : Within l (unpack (x * y)) := by
  show Within l (Float.Model.pack (UnpackedFloat.mul Format.binary64 (unpack x) (unpack y))).unpack
  obtain ⟨s₁, hux⟩ | ⟨s₁, m₁, e₁, h₁, hux, hx'⟩ := hx.cases
  · obtain ⟨s₂, huy⟩ | ⟨s₂, m₂, e₂, h₂, huy, -⟩ := hy.cases
    · rw [hux, huy]
      exact within_pack_zero _
    · rw [hux, huy]
      exact within_pack_zero _
  · obtain ⟨s₂, huy⟩ | ⟨s₂, m₂, e₂, h₂, huy, hy'⟩ := hy.cases
    · rw [hux, huy]
      exact within_pack_zero _
    · rw [hux, huy]
      exact within_unpacked_mul (canonical_of_unpack hux).1 (canonical_of_unpack huy).1 (by omega) hlow hmax

/-! ### Comparisons -/

theorem le_of_compare_isLE (h : ((compare e₁ e₂).then (compare m₁ m₂)).isLE = true) : e₁ ≤ e₂ := by
  rw [Ordering.isLE_then_iff_and] at h
  exact Int.isLE_compare.1 h.1

theorem unpack_abs (x : Float) : unpack x.abs = (unpack x).abs := by
  show (Float.Model.pack (unpack x).abs).unpack = _
  cases hx : unpack x with
  | zero s => cases s <;> rfl
  | infinity s => cases s <;> rfl
  | notANumber => rfl
  | finite s m e hm =>
    obtain ⟨hc, he⟩ := canonical_of_unpack hx
    exact unpack_pack_finite hc he

theorem within_of_abs_le (h : x.abs ≤ y) (hy : Within k (unpack y)) : Within k (unpack x) := by
  have hle : (unpack x.abs).le (unpack y) = true := of_decide_eq_true h
  rw [unpack_abs] at hle
  cases hux : unpack x with
  | zero s => trivial
  | notANumber =>
    rw [hux] at hle
    cases hle
  | infinity s =>
    rw [hux] at hle
    obtain ⟨s', huy⟩ | ⟨s', m', e', h', huy, -⟩ := hy.cases <;>
    · rw [huy] at hle
      cases hle
  | finite s m e hm =>
    rw [hux] at hle
    obtain ⟨s', huy⟩ | ⟨_ | _, m', e', h', huy, he'⟩ := hy.cases
    · rw [huy] at hle
      cases hle
    · rw [huy] at hle
      cases hle
    · rw [huy] at hle
      exact (le_of_compare_isLE hle).trans he'

end

end InertialRelay.Binary64
