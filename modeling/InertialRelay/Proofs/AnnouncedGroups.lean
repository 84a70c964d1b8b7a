import InertialRelay.Proofs.RecordLayout
import InertialRelay.Proofs.Squaring

/-!
# Groups that are announced

A high resolution message announces its groups of fields by flags, an integer of any size or a binary64 value of which
the integer part counts. `Reading.announced_groups_decide`: its reading holds the groups that are announced, and their
fields are all that it depends on besides the time and the flags themselves. That includes the fault of a message
that cannot be read.
-/

namespace InertialRelay

namespace Binary64

/-- The integer part, toward zero. -/
def integerPart (v : ℚ) : ℤ := if 0 ≤ v then ⌊v⌋ else ⌈v⌉

section
open Float.Model.UnpackedFloat
variable {m k : ℕ}

theorem integerPart_intCast (n : ℤ) : integerPart n = n := by
  unfold integerPart
  split <;> simp

theorem integerPart_neg (v : ℚ) : integerPart (-v) = -integerPart v := by
  unfold integerPart
  rcases lt_trichotomy v 0 with h | rfl | h
  · rw [if_pos (by linarith), if_neg (not_le.2 h), Int.floor_neg]
  · simp
  · rw [if_neg (by linarith), if_pos h.le, Int.ceil_neg]

theorem integerPart_div (m k : ℕ) : integerPart (m / k) = (m / k : ℕ) := by
  rw [integerPart, if_pos (by positivity)]
  exact_mod_cast Rat.floor_natCast_div_natCast m k

theorem integerPart_signed (s : Sign) {v : ℚ} {n : ℕ} (h : integerPart v = n) :
    integerPart (signed s 1 * v) = signed s n := by
  cases s <;> simp [signed, h, integerPart_neg]

/-- Truncation of a value is truncation of the number that it stands for. -/
theorem trunc?_eq (x : Float) : trunc? x = (toRat? x).map integerPart := by
  unfold trunc? toRat?
  cases unpack x with
  | notANumber => rfl
  | infinity s => rfl
  | zero s => rfl
  | finite s m e hm =>
    have hv : (signed s m : ℚ) * 2 ^ e = signed s 1 * (m * 2 ^ e) := by
      cases s <;> simp [signed]
    show (if 0 ≤ e then some (signed s (m * twoTo e.toNat)) else some (signed s (m / twoTo (-e).toNat))) =
      some (integerPart (signed s m * 2 ^ e))
    rw [hv]
    split
    next he =>
      have hpow : (m : ℚ) * 2 ^ e = ((m * 2 ^ e.toNat : ℕ) : ℤ) := by
        push_cast
        rw [← zpow_natCast, Int.toNat_of_nonneg he]
      rw [integerPart_signed s (hpow ▸ integerPart_intCast _)]
      rfl
    next he =>
      have hpow : (m : ℚ) * 2 ^ e = m / (2 ^ (-e).toNat : ℕ) := by
        push_cast
        rw [← zpow_natCast, Int.toNat_of_nonneg (by omega), zpow_neg, div_inv_eq_mul]
      rw [integerPart_signed s (hpow ▸ integerPart_div m _)]
      rfl

end

end Binary64

namespace Num

/-- The number that is meant, if there is one. -/
def toRat? : Num → Option ℚ
  | int n => some n
  | real x => Binary64.toRat? x

theorem toInt_eq_ok {a : Num} {n : ℤ} :
    a.toInt = .ok n ↔ ∃ v, a.toRat? = some v ∧ n = Binary64.integerPart v := by
  cases a with
  | int k => simp [toInt, toRat?, Binary64.integerPart_intCast, eq_comm]
  | real x =>
    simp only [toInt, toRat?, Binary64.trunc?_eq]
    cases Binary64.toRat? x <;> simp [eq_comm]

end Num

theorem Vec3.toList_inj {α : Type} {v w : Vec3 α} : v.toList = w.toList ↔ v = w := by
  obtain ⟨x, y, z⟩ := v
  obtain ⟨x', y', z'⟩ := w
  simp [toList]

namespace HighresImu
variable {m m' : HighresImu}

/-- Whether the flags announce a group. -/
def Announces (m : HighresImu) (g : Group) : Prop :=
  ∃ v, m.fieldsUpdated.toRat? = some v ∧ ∃ i ∈ g.bits, (Binary64.integerPart v).testBit i = true

/-- The fields of a group. -/
def group (m : HighresImu) : Group → List Num
  | .inertial => m.gyro.toList ++ m.acc.toList
  | .magneticField => m.mag.toList
  | .fluidPressure => [m.absPressure]
  | .temperature => [m.temperature]

theorem announces_iff {flags : ℤ} (hf : m.fieldsUpdated.toInt = .ok flags) (g : Group) :
    m.Announces g ↔ hasAny flags g.mask = true := by
  obtain ⟨v, hv, rfl⟩ := Num.toInt_eq_ok.1 hf
  simp [Announces, hv, Group.hasAny_mask]

end HighresImu

namespace Reading
variable {m m' : HighresImu}

theorem guarded_bind_congr {α β : Type} {present : Bool} {a b : Except Fault α} {k k' : Option α → Except Fault β}
    (h : present = true → a = b) (hk : ∀ o, k o = k' o) : guarded present a >>= k = guarded present b >>= k' := by
  cases present with
  | false => exact hk none
  | true =>
    rw [h rfl]
    exact bind_congr hk

theorem ofHighresImu_congr (ht : m'.timeUsec = m.timeUsec) (hf : m'.fieldsUpdated = m.fieldsUpdated)
    (hg : ∀ g, m.Announces g → m'.group g = m.group g) : ofHighresImu m' = ofHighresImu m := by
  unfold ofHighresImu
  rw [ht, hf]
  refine bind_congr fun time => ?_
  cases hflags : m.fieldsUpdated.toInt with
  | error f => rfl
  | ok flags =>
    have hgroup (g : Group) (h : HighresImu.hasAny flags g.mask = true) : m'.group g = m.group g :=
      hg g ((HighresImu.announces_iff hflags g).2 h)
    show guarded _ _ >>= _ = guarded _ _ >>= _
    refine guarded_bind_congr (fun h => ?_) fun inertial => ?_
    · obtain ⟨hgyro, hacc⟩ := List.append_inj (hgroup .inertial h) rfl
      rw [Vec3.toList_inj.1 hgyro, Vec3.toList_inj.1 hacc]
    refine guarded_bind_congr (fun h => ?_) fun magneticField => ?_
    · rw [Vec3.toList_inj.1 (hgroup .magneticField h)]
    refine guarded_bind_congr (fun h => ?_) fun fluidPressure => ?_
    · rw [List.singleton_inj.1 (hgroup .fluidPressure h)]
    refine guarded_bind_congr (fun h => ?_) fun temperature => rfl
    rw [List.singleton_inj.1 (hgroup .temperature h)]

/-- The reading of a message holds the groups that are announced by the integer part of its flags. A message with
the same time, the same flags and the same fields in these groups is read as the same, or not read for the same
fault, whatever its other fields are. -/
theorem announced_groups_decide (m : HighresImu) :
    (∀ r, ofHighresImu m = .ok r →
      ∃ v, m.fieldsUpdated.toRat? = some v ∧
        ∀ g : Group, r.holds g = true ↔ ∃ i ∈ g.bits, (Binary64.integerPart v).testBit i = true) ∧
    ∀ m' : HighresImu, m'.timeUsec = m.timeUsec → m'.fieldsUpdated = m.fieldsUpdated →
      (∀ g, m.Announces g → m'.group g = m.group g) → ofHighresImu m' = ofHighresImu m := by
  refine ⟨fun r hr => ?_, fun m' ht hf hg => ofHighresImu_congr ht hf hg⟩
  obtain ⟨flags, hf, hg⟩ := holds_of_ofHighresImu hr
  obtain ⟨v, hv, rfl⟩ := Num.toInt_eq_ok.1 hf
  exact ⟨v, hv, fun g => by rw [hg, Group.hasAny_mask]⟩

/-- Flags of 4096.75 announce the temperature; integers too large for a float do no harm in the other groups. -/
theorem announced_groups_decide_temperature :
    let zero : Vec3 Num := ⟨.int 0, .int 0, .int 0⟩
    let huge : Num := .int (16 ^ 256)
    let flags : Num := .real (.ofBits 0x40b000c000000000)
    let m : HighresImu := ⟨.int 0, zero, zero, zero, .int 0, .int 0, .int 0, .int 25, flags⟩
    let m' : HighresImu :=
      ⟨.int 0, ⟨huge, huge, huge⟩, ⟨huge, huge, huge⟩, ⟨huge, huge, huge⟩, huge, huge, huge, .int 25, flags⟩
    let r : SensorReading := { deviceTime := 0, temperature := some 25 }
    (ofHighresImu m = .ok r ∧ m'.timeUsec = m.timeUsec ∧ m'.fieldsUpdated = m.fieldsUpdated ∧
      ∀ g, m.Announces g → m'.group g = m.group g) ∧
    (∃ v, m.fieldsUpdated.toRat? = some v ∧
      ∀ g : Group, r.holds g = true ↔ ∃ i ∈ g.bits, (Binary64.integerPart v).testBit i = true) ∧
    ofHighresImu m' = .ok r := by
  intro zero huge flags m m' r
  have hr : ofHighresImu m = .ok r := by decide +kernel
  have hflags : m.fieldsUpdated.toInt = .ok 4096 := by decide +kernel
  have hany (g : Group) (h : HighresImu.hasAny 4096 g.mask = true) : g = .temperature := by
    cases g with
    | temperature => rfl
    | inertial | magneticField | fluidPressure => cases h
  have hg : ∀ g, m.Announces g → m'.group g = m.group g := by
    intro g h
    obtain rfl := hany g ((HighresImu.announces_iff hflags g).1 h)
    rfl
  obtain ⟨hholds, hsame⟩ := announced_groups_decide m
  exact ⟨⟨hr, rfl, rfl, hg⟩, hholds r hr, (hsame m' rfl rfl hg).trans hr⟩

end Reading

end InertialRelay
