import InertialRelay.Proofs.Rounding
import Mathlib

/-!
# The bits of a value

What is packed is unpacked as it was (`unpack_pack_finite`), and an unpacked mantissa has the form that rounding
leaves (`canonical_of_unpack`). Both are read off the three parts of a bit pattern (`unpack_packComponents`).
-/

namespace InertialRelay.Binary64

open Float.Model Float.Model.UnpackedFloat

variable {s : Sign} {m : ℕ} {e : ℤ} {hm : 0 < m}

/-! ### Parts of a bit pattern -/

theorem toNat_append_one (m : BitVec 52) : (1#1 ++ m).toNat = 2 ^ 52 + m.toNat := by
  rw [BitVec.toNat_append, ← Nat.shiftLeft_add_eq_or_of_lt m.isLt]
  rfl

theorem unpack_packComponents (s : Sign) (e : BitVec 11) (m : BitVec 52) :
    UnpackedFloat.unpack Format.binary64 (packComponents Format.binary64 s e m) =
      if e = -1#11 then if m = 0#52 then .infinity s else .notANumber
      else if e = 0#11 then sized s m.toNat (-1074)
      else sized s (2 ^ 52 + m.toNat) (e.toNat - 1075) := by
  have hbias : (Format.binary64.exponentBias : ℤ) + Format.binary64.mantissaBitsWithoutImplicit = 1075 := rfl
  unfold UnpackedFloat.unpack
  simp only [unpackMantissa_packComponents, unpackExponent_packComponents, unpackSign_packComponents,
    Sign.ofBitVec_toBitVec, hbias]
  split
  · rfl
  · split
    · next _ he =>
      subst he
      by_cases hm : m = 0#52
      · rw [dif_pos hm, hm]
        rfl
      · rw [dif_neg hm, sized_of_pos]
        rfl
    · rw [sized_of_pos (by omega)]
      congr 1
      exact toNat_append_one m

theorem sized_inj {s' : Sign} {m' : ℕ} {e' : ℤ} (h : sized s' m' e' = .finite s m e hm) :
    s' = s ∧ m' = m ∧ e' = e := by
  by_cases h0 : m' = 0
  · rw [sized, dif_pos h0] at h
    cases h
  · rw [sized_of_pos (Nat.pos_of_ne_zero h0)] at h
    cases h
    exact ⟨rfl, rfl, rfl⟩

theorem canonical_of_unpack {b : BitVec Format.binary64.numBits}
    (h : UnpackedFloat.unpack Format.binary64 b = .finite s m e hm) : Canonical m e ∧ e ≤ maxExponent := by
  rw [← packComponents_unpackSign_unpackExponent_unpackMantissa b, unpack_packComponents] at h
  generalize (unpackExponent b : BitVec 11) = E at h
  generalize (unpackMantissa b : BitVec 52) = M at h
  have hM : M.toNat < 2 ^ 52 := M.isLt
  have hE : E.toNat < 2 ^ 11 := E.isLt
  split at h
  · split at h <;> cases h
  · next hne =>
    have hmax : E.toNat ≠ 2047 := fun hE => hne (BitVec.eq_of_toNat_eq hE)
    split at h
    · obtain ⟨-, rfl, rfl⟩ := sized_inj h
      exact ⟨⟨hm, by omega, le_rfl, fun h => absurd h (lt_irrefl _)⟩, by decide⟩
    · next hzero =>
      have hpos : E.toNat ≠ 0 := fun hE => hzero (BitVec.eq_of_toNat_eq hE)
      obtain ⟨-, rfl, rfl⟩ := sized_inj h
      exact ⟨⟨hm, by omega, by omega, fun _ => by omega⟩, by simp only [maxExponent]; omega⟩

/-! ### Packing and unpacking -/

theorem pack_normal {E : BitVec 11} {M : BitVec 52} (hmax : E ≠ -1#11) :
    UnpackedFloat.pack Format.binary64 (sized s (2 ^ 52 + M.toNat) (E.toNat - 1075)) =
      packComponents Format.binary64 s E M := by
  have hM : M.toNat < 2 ^ 52 := M.isLt
  have hE : E.toNat < 2 ^ 11 := E.isLt
  have hne : E.toNat ≠ 2047 := fun h => hmax (BitVec.eq_of_toNat_eq h)
  have hlog : (2 ^ 52 + M.toNat).log2 = 52 := (Nat.log2_eq_iff (by omega)).2 ⟨by omega, by omega⟩
  have hexp : ((E.toNat : ℤ) - 1075 + Format.binary64.exponentBias +
      Format.binary64.mantissaBitsWithoutImplicit).toNat = E.toNat := by
    show ((E.toNat : ℤ) - 1075 + 1023 + 52).toNat = _
    omega
  have hmant : BitVec.ofNat 52 (2 ^ 52 + M.toNat) = M := by
    refine BitVec.eq_of_toNat_eq ?_
    rw [BitVec.toNat_ofNat, Nat.add_mod_left, Nat.mod_eq_of_lt hM]
  have hoverflow : ¬2 ^ Format.binary64.exponentBits ≤ E.toNat + 1 := by
    show ¬2 ^ 11 ≤ E.toNat + 1
    omega
  rw [sized_of_pos (by omega), UnpackedFloat.pack, hlog, hexp, if_neg hoverflow,
    if_pos (show 52 + 1 = Format.binary64.mantissaBits from rfl)]
  have hexponent : BitVec.ofNat 11 E.toNat = E := (BitVec.ofNat_toNat 11 E).trans (BitVec.setWidth_eq E)
  exact congrArg₂ (packComponents Format.binary64 s) hexponent hmant

theorem pack_subnormal {M : BitVec 52} :
    UnpackedFloat.pack Format.binary64 (sized s M.toNat (-1074)) = packComponents Format.binary64 s 0#11 M := by
  have hM : M.toNat < 2 ^ 52 := M.isLt
  by_cases hz : M.toNat = 0
  · obtain rfl : M = 0#52 := BitVec.eq_of_toNat_eq hz
    rfl
  · have hlog : M.toNat.log2 < 52 := (Nat.log2_lt hz).2 hM
    have hne : ¬M.toNat.log2 + 1 = Format.binary64.mantissaBits := by
      show ¬M.toNat.log2 + 1 = 53
      omega
    rw [sized_of_pos (Nat.pos_of_ne_zero hz), UnpackedFloat.pack, if_neg (by decide), if_neg hne]
    have hmant : BitVec.ofNat 52 M.toNat = M := (BitVec.ofNat_toNat 52 M).trans (BitVec.setWidth_eq M)
    exact congrArg (packComponents Format.binary64 s 0#11) hmant

theorem pack_overflow (he : maxExponent < e) :
    UnpackedFloat.pack Format.binary64 (.finite s m e hm) = packedInfinity Format.binary64 s := by
  have hbias : (Format.binary64.exponentBias : ℤ) = 1023 := rfl
  have hbits : (Format.binary64.mantissaBitsWithoutImplicit : ℤ) = 52 := rfl
  have hoverflow : 2 ^ Format.binary64.exponentBits ≤
      (e + Format.binary64.exponentBias + Format.binary64.mantissaBitsWithoutImplicit).toNat + 1 := by
    show 2 ^ 11 ≤ _
    rw [hbias, hbits]
    simp only [maxExponent] at he
    omega
  rw [UnpackedFloat.pack, if_pos hoverflow]

theorem unpack_pack_finite (hc : Canonical m e) (he : e ≤ maxExponent) :
    UnpackedFloat.unpack Format.binary64 (UnpackedFloat.pack Format.binary64 (.finite s m e hm)) =
      .finite s m e hm := by
  rw [← sized_of_pos hm]
  by_cases hn : 2 ^ 52 ≤ m
  · have hlt := hc.lt
    have hge := hc.ge
    simp only [maxExponent] at he
    set M := BitVec.ofNat 52 (m - 2 ^ 52) with hM
    set E := BitVec.ofNat 11 (e + 1075).toNat with hE
    have hMn : M.toNat = m - 2 ^ 52 := by rw [hM, BitVec.toNat_ofNat, Nat.mod_eq_of_lt (by omega)]
    have hEn : E.toNat = (e + 1075).toNat := by rw [hE, BitVec.toNat_ofNat, Nat.mod_eq_of_lt (by omega)]
    have hzero : E ≠ 0#11 := fun h => by
      rw [h, BitVec.toNat_zero] at hEn
      omega
    have hmax : E ≠ -1#11 := fun h => by
      rw [h, show (-1#11 : BitVec 11).toNat = 2047 from rfl] at hEn
      omega
    rw [show m = 2 ^ 52 + M.toNat by omega, show e = E.toNat - 1075 by omega, pack_normal hmax,
      unpack_packComponents, if_neg hmax, if_neg hzero]
  · have hbottom : e = -1074 := by
      by_contra hne
      exact hn (hc.normal (lt_of_le_of_ne hc.ge (Ne.symm hne)))
    set M := BitVec.ofNat 52 m with hM
    have hMn : M.toNat = m := by rw [hM, BitVec.toNat_ofNat, Nat.mod_eq_of_lt (by omega)]
    rw [hbottom, ← hMn, pack_subnormal, unpack_packComponents, if_neg (by decide), if_pos rfl]

/-- A value is told by what it unpacks to. -/
theorem eq_of_unpack {x : Float} {u : UnpackedFloat} (h : unpack x = u) : ⟨Float.Model.pack u⟩ = x := by
  subst h
  obtain ⟨⟨bits, valid⟩⟩ := x
  have hpack := pack_unpack_of_valid valid
  unfold unpack Float.Model.unpack Float.Model.pack
  simp only [hpack]

end InertialRelay.Binary64
