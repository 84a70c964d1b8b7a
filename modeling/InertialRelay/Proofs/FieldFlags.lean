import InertialRelay.Reading
import Mathlib.Data.Int.Bitwise

/-!
# Flags of a high resolution message

`HighresImu.hasAny_iff`: `hasAny` asks for bits of the two's complement of an integer of any size and
sign, although it looks at the lowest 16 only.
-/

namespace InertialRelay

theorem testBit_toNat_emod (n : Int) {w i : Nat} (h : i < w) :
    (n % ((2 ^ w : Nat) : Int)).toNat.testBit i = n.testBit i := by
  cases n with
  | ofNat m =>
    rw [Int.ofNat_eq_natCast, ← Int.natCast_emod, Int.toNat_natCast, Nat.testBit_mod_two_pow]
    simp [h, Int.testBit]
  | negSucc m =>
    have hlt : m % 2 ^ w < 2 ^ w := Nat.mod_lt _ (Nat.two_pow_pos w)
    have he : (Int.negSucc m % ((2 ^ w : Nat) : Int)).toNat = 2 ^ w - (m % 2 ^ w + 1) := by
      rw [Int.negSucc_emod _ (by exact_mod_cast Nat.two_pow_pos w), ← Int.natCast_emod]
      omega
    rw [he, Nat.testBit_two_pow_sub_succ hlt, Nat.testBit_mod_two_pow]
    simp [h, Int.testBit]

theorem land_eq_zero_iff {m n : Nat} :
    m &&& n = 0 ↔ ∀ i, n.testBit i = true → m.testBit i = false := by
  refine ⟨fun h i hn => ?_, fun h => Nat.eq_of_testBit_eq fun i => ?_⟩
  · have hi := Nat.testBit_and m n i
    rw [h, hn, Nat.zero_testBit, Bool.and_true] at hi
    exact hi.symm
  · rw [Nat.testBit_and, Nat.zero_testBit]
    cases hn : n.testBit i with
    | false => rw [Bool.and_false]
    | true => rw [h i hn, Bool.and_true]

namespace HighresImu

theorem hasAny_iff {flags : Int} {mask : Nat} (h : mask < 2 ^ 16) :
    hasAny flags mask = true ↔ ∃ i, mask.testBit i = true ∧ flags.testBit i = true := by
  have hbit : ∀ i, mask.testBit i = true → (flags % 65536).toNat.testBit i = flags.testBit i := by
    intro i hi
    refine testBit_toNat_emod flags (w := 16) (Nat.lt_of_not_le fun hle => ?_)
    have := Nat.testBit_lt_two_pow (Nat.lt_of_lt_of_le h (Nat.pow_le_pow_right (by decide) hle))
    rw [this] at hi; cases hi
  rw [hasAny, bne_iff_ne, ne_eq, land_eq_zero_iff, not_forall]
  refine exists_congr fun i => ?_
  rw [Classical.not_imp, Bool.not_eq_false]
  exact and_congr_right fun hi => by rw [hbit i hi]

/-- Acceleration and rates are announced by any of the bits 0 to 5. -/
theorem hasAny_accelGyroMask {flags : Int} :
    hasAny flags accelGyroMask = true ↔ ∃ i < 6, flags.testBit i = true := by
  have hm : ∀ i, accelGyroMask.testBit i = true ↔ i < 6 := by
    intro i
    rw [show accelGyroMask = 2 ^ 6 - 1 from rfl, Nat.testBit_two_pow_sub_one]
    simp
  rw [hasAny_iff (by decide)]
  simp only [hm]

end HighresImu
end InertialRelay
