import InertialRelay.Proofs.AnnouncedGroups
import InertialRelay.Proofs.NormalPath
import InertialRelay.Proofs.Overflow

/-!
# Fields that cannot be used

`Reading.fails_iff_unusable`: a message cannot be read exactly if one of the fields that are used holds a number that
cannot be. Such a number is an integer without a nearest binary64 value, an infinite angle, or flags without an integer
part. Fields of which no record makes use may hold anything.
-/

namespace InertialRelay

/-- Whether a computation stops with a fault. -/
def Fails {ε α : Type} (x : Except ε α) : Prop := ∃ e, x = .error e

section
variable {ε α β : Type} {x : Except ε α} {p : Prop}

theorem not_fails_ok (a : α) : ¬Fails (.ok a : Except ε α) := nofun

theorem fails_map (g : α → β) : Fails (g <$> x) ↔ Fails x := by
  cases x <;> simp [Fails, Functor.map, Except.map]

/-- If it does not depend on the result of the first part whether the second fails. -/
theorem fails_bind {k : α → Except ε β} (h : ∀ a, x = .ok a → (Fails (k a) ↔ p)) :
    Fails (x >>= k) ↔ Fails x ∨ p := by
  cases x with
  | error e => exact iff_of_true ⟨e, rfl⟩ (.inl ⟨e, rfl⟩)
  | ok a => exact (h a rfl).trans (or_iff_right (not_fails_ok a)).symm

theorem fails_bind_pure (f : α → β) : Fails (x >>= fun a => pure (f a)) ↔ Fails x :=
  (fails_bind fun a _ => iff_of_false (not_fails_ok (f a)) id).trans (or_false _).to_iff

end

namespace Num
variable {a : Num}

/-- Whether a number is an integer without a nearest binary64 value. -/
def TooLarge : Num → Prop
  | int n => (2 ^ 1024 - 2 ^ 970 : ℤ) ≤ |n|
  | real _ => False

def isFinite : Num → Bool
  | int _ => true
  | real x => x.isFinite

theorem tooLarge_int {n : ℤ} : (int n).TooLarge ↔ Binary64.tooLarge ≤ n.natAbs := by
  show (2 ^ 1024 - 2 ^ 970 : ℤ) ≤ |n| ↔ _
  rw [← Binary64.cast_tooLarge, Int.abs_eq_natAbs, Nat.cast_le]

theorem toFloat_int (n : ℤ) :
    (int n).toFloat = if Binary64.tooLarge ≤ n.natAbs then .error .intTooLarge else .ok (Float.ofInt n) := by
  -- `delta`, because an equation of `toFloat` would be found by evaluating the bound
  delta toFloat Binary64.ofInt?
  dsimp only
  split
  next x hx =>
    split at hx
    next => cases hx
    next h => rw [if_neg h, Option.some.inj hx]
  next hx =>
    split at hx
    next h => rw [if_pos h]
    next => cases hx

theorem fails_toFloat : Fails a.toFloat ↔ a.TooLarge := by
  cases a with
  | real x => exact iff_of_false (not_fails_ok x) id
  | int n =>
    rw [toFloat_int, tooLarge_int]
    split
    next h => exact iff_of_true ⟨_, rfl⟩ h
    next h => exact iff_of_false (not_fails_ok _) h

theorem fails_times (c : Float) : Fails (a.times c) ↔ a.TooLarge := (fails_bind_pure _).trans fails_toFloat

theorem fails_dividedBy (c : Float) : Fails (a.dividedBy c) ↔ a.TooLarge := (fails_bind_pure _).trans fails_toFloat

theorem fails_toInt : Fails a.toInt ↔ a.isFinite = false := by
  cases a with
  | int n => exact iff_of_false (not_fails_ok n) Bool.false_ne_true.symm
  | real x =>
    have hfinite : (real x).isFinite = (Binary64.toRat? x).isSome := Binary64.isFinite_eq x
    rw [hfinite, toInt, Binary64.trunc?_eq]
    cases Binary64.toRat? x with
    | none => exact iff_of_true ⟨_, rfl⟩ rfl
    | some v => exact iff_of_false (not_fails_ok _) Bool.false_ne_true.symm

end Num

theorem Group.exists_iff {p : Group → Prop} :
    (∃ g, p g) ↔ p .inertial ∨ p .magneticField ∨ p .fluidPressure ∨ p .temperature := by
  constructor
  · rintro ⟨g, h⟩
    cases g <;> simp [h]
  · rintro (h | h | h | h) <;> exact ⟨_, h⟩

theorem Group.forall_iff {p : Group → Prop} :
    (∀ g, p g) ↔ p .inertial ∧ p .magneticField ∧ p .fluidPressure ∧ p .temperature := by
  refine ⟨fun h => ⟨h _, h _, h _, h _⟩, ?_⟩
  rintro ⟨hi, hm, hp, ht⟩ g
  cases g <;> assumption

/-! ## Readings -/

theorem Num.isInf_of_toFloat {a : Num} {x : Float} (h : a.toFloat = .ok x) : x.isInf = a.isInf := by
  cases a with
  | real y =>
    cases h
    rfl
  | int n =>
    rw [toFloat_int] at h
    split at h
    next => cases h
    next hsmall =>
      cases h
      rwa [← Binary64.isInf_ofInt, Bool.not_eq_true] at hsmall

namespace Quaternion

theorem fails_halfAngle (a : Num) : Fails (halfAngle a) ↔ a.TooLarge ∨ a.isInf = true := by
  unfold halfAngle
  rw [fails_bind (p := a.isInf = true), Num.fails_dividedBy]
  intro h hh
  obtain ⟨x, hx, hpure⟩ := bind_eq_ok.1 hh
  obtain rfl := pure_eq_ok.1 hpure
  have hinf : (x / 2).isInf = a.isInf := (Binary64.isInf_half x).trans (Num.isInf_of_toFloat hx)
  rw [hinf]
  cases a.isInf with
  | true => exact iff_of_true ⟨.domain, rfl⟩ rfl
  | false => exact iff_of_false (not_fails_ok _) Bool.false_ne_true

theorem fails_ofAngles (roll pitch yaw : Num) :
    Fails (ofAngles roll pitch yaw) ↔ ∃ a ∈ [roll, pitch, yaw], a.TooLarge ∨ a.isInf = true := by
  unfold ofAngles
  rw [fails_bind fun _ _ => fails_bind fun _ _ => fails_bind_pure _]
  simp [fails_halfAngle]

theorem fails_mapM (q : Quaternion Num) : Fails (q.mapM Num.toFloat) ↔ ∃ a ∈ q.toList, a.TooLarge := by
  unfold mapM
  rw [fails_bind fun _ _ => fails_bind fun _ _ => fails_bind fun _ _ => fails_bind_pure _]
  simp [Num.fails_toFloat, toList]

end Quaternion

namespace Reading

theorem fails_toFloats (v : Vec3 Num) : Fails (toFloats v) ↔ ∃ a ∈ v.toList, a.TooLarge := by
  unfold toFloats Vec3.mapM
  rw [fails_bind fun _ _ => fails_bind fun _ _ => fails_bind_pure _]
  simp [Num.fails_toFloat, Vec3.toList]

theorem fails_guarded {α : Type} (present : Bool) (value : Except Fault α) :
    Fails (guarded present value) ↔ present = true ∧ Fails value := by
  cases present with
  | false => simp [guarded, not_fails_ok]
  | true => simp [guarded, fails_map]

section
variable {time : Num} {rates : Vec3 Num}

theorem fails_ofQuaternion (q : Quaternion Float) :
    Fails (ofQuaternion time rates q) ↔ time.TooLarge ∨ ∃ a ∈ rates.toList, a.TooLarge := by
  unfold ofQuaternion
  rw [fails_bind fun _ _ => fails_bind_pure _, fails_toFloats, Num.fails_times, or_comm]

theorem fails_ofAttitude (m : Attitude) : Fails (ofAttitude m) ↔
    m.timeBootMs.TooLarge ∨ (∃ a ∈ [m.roll, m.pitch, m.yaw], a.TooLarge ∨ a.isInf = true) ∨
      ∃ a ∈ m.rates.toList, a.TooLarge := by
  unfold ofAttitude
  rw [fails_bind fun q _ => fails_ofQuaternion q, Quaternion.fails_ofAngles, or_left_comm]

theorem fails_ofAttitudeQuaternion (m : AttitudeQuaternion) : Fails (ofAttitudeQuaternion m) ↔
    m.timeBootMs.TooLarge ∨ (∃ a ∈ m.orientation.toList, a.TooLarge) ∨ ∃ a ∈ m.rates.toList, a.TooLarge := by
  unfold ofAttitudeQuaternion
  rw [fails_bind fun q _ => fails_ofQuaternion q, Quaternion.fails_mapM, or_left_comm]

/-- The three vectors of a sample are converted before its time, and the rates before the acceleration. -/
theorem fails_sample {α : Type} (m : ImuSample) (c : Float) (f : Vec3 Float → Vec3 Float → Vec3 Float → Float → α) :
    Fails (do
      let gyro ← toFloats m.gyro
      let acc ← toFloats m.acc
      let mag ← toFloats m.mag
      let time ← m.time.times c
      return f gyro acc mag time) ↔
      m.time.TooLarge ∨ (∃ a ∈ m.acc.toList, a.TooLarge) ∨ (∃ a ∈ m.gyro.toList, a.TooLarge) ∨
        ∃ a ∈ m.mag.toList, a.TooLarge := by
  rw [fails_bind fun _ _ => fails_bind fun _ _ => fails_bind fun _ _ => fails_bind_pure _]
  simp only [fails_toFloats, Num.fails_times, or_comm, or_left_comm]

theorem fails_ofScaledImu (m : ImuSample) : Fails (ofScaledImu m) ↔
    m.time.TooLarge ∨ (∃ a ∈ m.acc.toList, a.TooLarge) ∨ (∃ a ∈ m.gyro.toList, a.TooLarge) ∨
      ∃ a ∈ m.mag.toList, a.TooLarge :=
  fails_sample m Units.msToS _

theorem fails_ofRawImu (m : ImuSample) (ardupilot : Bool) : Fails (ofRawImu m ardupilot) ↔
    m.time.TooLarge ∨ (∃ a ∈ m.acc.toList, a.TooLarge) ∨ (∃ a ∈ m.gyro.toList, a.TooLarge) ∨
      ∃ a ∈ m.mag.toList, a.TooLarge :=
  fails_sample m Units.usToS _

theorem fails_ofScaledPressure (m : ScaledPressure) : Fails (ofScaledPressure m) ↔
    ∃ a ∈ [m.timeBootMs, m.pressAbs, m.temperature], a.TooLarge := by
  unfold ofScaledPressure
  rw [fails_bind fun _ _ => fails_bind fun _ _ => fails_bind_pure _]
  simp [Num.fails_times, Num.fails_dividedBy]

theorem fails_inertial (gyro acc : Vec3 Num) (f : Vec3 Float → Vec3 Float → InertialReading) :
    Fails (do
      let gyro ← toFloats gyro
      let acc ← toFloats acc
      return f gyro acc) ↔ ∃ a ∈ gyro.toList ++ acc.toList, a.TooLarge := by
  rw [fails_bind fun _ _ => fails_bind_pure _, fails_toFloats, fails_toFloats]
  simp [or_and_right, exists_or]

theorem fails_ofHighresImu (m : HighresImu) : Fails (ofHighresImu m) ↔
    m.timeUsec.TooLarge ∨ m.fieldsUpdated.isFinite = false ∨
      ∃ g, m.Announces g ∧ ∃ a ∈ m.group g, a.TooLarge := by
  unfold ofHighresImu
  rw [fails_bind fun _ _ => fails_bind (p := ∃ g, m.Announces g ∧ ∃ a ∈ m.group g, a.TooLarge) fun flags hf => ?_,
    Num.fails_times, Num.fails_toInt]
  rw [fails_bind fun _ _ => fails_bind fun _ _ => fails_bind fun _ _ => fails_bind_pure _]
  simp only [fails_guarded, fails_bind_pure, fails_inertial, fails_toFloats, Num.fails_times, Num.fails_toFloat,
    Group.exists_iff, HighresImu.announces_iff hf, HighresImu.group, List.mem_singleton, exists_eq_left]
  rfl

end

end Reading

/-! ## Fields by name -/

/-- The names of the fields of a group. -/
def Group.fieldNames : Group → List String
  | inertial => ["xgyro", "ygyro", "zgyro", "xacc", "yacc", "zacc"]
  | magneticField => ["xmag", "ymag", "zmag"]
  | fluidPressure => ["abs_pressure"]
  | temperature => ["temperature"]

namespace Message

/-- The fields that no reading holds. -/
def neverUsed : List String := ["diff_pressure", "pressure_alt", "press_diff"]

/-- Whether the reading of a message makes use of a field. The fields of a group in a high resolution message are used
only if the group is announced. -/
def Uses (m : Message) (name : String) : Prop :=
  name ∉ neverUsed ∧
    ∀ high, m = highresImu high → ∀ g : Group, name ∈ g.fieldNames → high.Announces g

end Message

/-- Whether a field holds a number that cannot be used. Flags have to have an integer part, any other field a nearest
binary64 value, and an angle a cosine and a sine. -/
def Unusable (name : String) (a : Num) : Prop :=
  if name = "fields_updated" then a.isFinite = false
  else a.TooLarge ∨ name ∈ ["roll", "pitch", "yaw"] ∧ a.isInf = true

namespace Group
variable {g h : Group} {name : String}

theorem eq_of_mem_fieldNames : ∀ name ∈ g.fieldNames, name ∈ h.fieldNames → g = h := by
  cases g <;> cases h <;> decide

/-- No group has a field with a rule of its own. -/
theorem not_mem_of_mem_fieldNames : ∀ name ∈ g.fieldNames,
    name ∉ Message.neverUsed ∧ name ≠ "fields_updated" ∧ name ∉ ["roll", "pitch", "yaw"] := by
  cases g <;> decide

theorem uses_iff {m : HighresImu} (hg : name ∈ g.fieldNames) :
    (Message.highresImu m).Uses name ↔ m.Announces g := by
  constructor
  · rintro ⟨-, huses⟩
    exact huses m rfl g hg
  · intro hannounced
    refine ⟨(not_mem_of_mem_fieldNames name hg).1, ?_⟩
    rintro _ hm h hh
    cases hm
    rwa [← eq_of_mem_fieldNames name hg hh]

theorem unusable_iff {a : Num} (hg : name ∈ g.fieldNames) : Unusable name a ↔ a.TooLarge := by
  obtain ⟨-, hflags, hangle⟩ := not_mem_of_mem_fieldNames name hg
  rw [Unusable, if_neg hflags]
  exact or_iff_left fun h => hangle h.1

end Group

namespace HighresImu
variable {m : HighresImu} {g : Group} {a : Num}

/-- The time and the flags belong to no group. -/
theorem uses_of_no_group : ∀ name ∈ ["time_usec", "fields_updated"], (Message.highresImu m).Uses name := by
  have hnone : ∀ name ∈ ["time_usec", "fields_updated"],
      name ∉ Message.neverUsed ∧ ∀ g : Group, name ∉ g.fieldNames := by
    simp [Message.neverUsed, Group.forall_iff, Group.fieldNames]
  intro name hname
  obtain ⟨hused, hgroup⟩ := hnone name hname
  exact ⟨hused, fun _ _ g hg => absurd hg (hgroup g)⟩

theorem unusable_time (a : Num) : Unusable "time_usec" a ↔ a.TooLarge := by
  simp [Unusable]

theorem exists_name (ha : a ∈ m.group g) : ∃ name ∈ g.fieldNames, (name, a) ∈ (Message.highresImu m).fields := by
  cases g <;> simp [group, Vec3.toList, Group.fieldNames, Message.fields] at ha ⊢ <;> grind

theorem field_cases (m : HighresImu) : ∀ field ∈ (Message.highresImu m).fields,
    field = ("time_usec", m.timeUsec) ∨ field = ("fields_updated", m.fieldsUpdated) ∨
      field.1 ∈ Message.neverUsed ∨ ∃ g : Group, field.1 ∈ g.fieldNames ∧ field.2 ∈ m.group g := by
  simp [Message.fields, Message.neverUsed, Group.exists_iff, Group.fieldNames, group, Vec3.toList]

end HighresImu

/-- A message of any kind and from any firmware, its fields being any integers and binary64 values. -/
theorem Reading.fails_iff_unusable (m : Message) (ardupilot : Bool) :
    (∃ f, ofMessage m ardupilot = .error f) ↔
      ∃ field ∈ m.fields, m.Uses field.1 ∧ Unusable field.1 field.2 := by
  show Fails (ofMessage m ardupilot) ↔ _
  cases m with
  | attitude m =>
    rw [ofMessage, fails_map, fails_ofAttitude]
    simp [Message.fields, Message.Uses, Message.neverUsed, Unusable, Vec3.toList, or_assoc]
  | attitudeQuaternion m =>
    rw [ofMessage, fails_map, fails_ofAttitudeQuaternion]
    simp [Message.fields, Message.Uses, Message.neverUsed, Unusable, Vec3.toList, Quaternion.toList, or_assoc]
  | highresImu m =>
    rw [ofMessage, fails_map, fails_ofHighresImu]
    constructor
    · rintro (htime | hflags | ⟨g, hg, a, ha, hlarge⟩)
      · exact ⟨("time_usec", m.timeUsec), by simp [Message.fields], HighresImu.uses_of_no_group _ (by simp),
          (HighresImu.unusable_time _).2 htime⟩
      · exact ⟨("fields_updated", m.fieldsUpdated), by simp [Message.fields],
          HighresImu.uses_of_no_group _ (by simp), hflags⟩
      · obtain ⟨name, hname, hmem⟩ := HighresImu.exists_name ha
        exact ⟨(name, a), hmem, (Group.uses_iff hname).2 hg, (Group.unusable_iff hname).2 hlarge⟩
    · rintro ⟨⟨name, a⟩, hmem, huses, hbad⟩
      obtain htime | hflags | hunused | ⟨g, hname, ha⟩ := m.field_cases _ hmem
      · cases htime
        exact .inl ((HighresImu.unusable_time _).1 hbad)
      · cases hflags
        exact .inr (.inl hbad)
      · exact absurd hunused huses.1
      · exact .inr (.inr ⟨g, (Group.uses_iff hname).1 huses, a, ha, (Group.unusable_iff hname).1 hbad⟩)
  | rawImu m =>
    rw [ofMessage, fails_map, fails_ofRawImu]
    simp [Message.fields, ImuSample.fields, Message.Uses, Message.neverUsed, Unusable, Vec3.toList, or_assoc]
  | scaledImu m =>
    rw [ofMessage, fails_map, fails_ofScaledImu]
    simp [Message.fields, ImuSample.fields, Message.Uses, Message.neverUsed, Unusable, Vec3.toList, or_assoc]
  | scaledPressure m =>
    rw [ofMessage, fails_map, fails_ofScaledPressure]
    simp [Message.fields, Message.Uses, Message.neverUsed, Unusable]

end InertialRelay
