import InertialRelay.Proofs.FieldFlags

/-!
# What a reading holds

When a sensor message can be read and what its reading then holds, one equivalence per kind.
`Message.leaves_of_reading`: which messages carry an inertial group, and which acceleration is to be
remembered of it.
-/

namespace InertialRelay

section
variable {ε α β : Type} {x : Except ε α} {b : β}

theorem pure_eq_ok {b' : β} : (pure b' : Except ε β) = .ok b ↔ b' = b := by
  simp [pure, Except.pure]

theorem map_eq_ok {g : α → β} : g <$> x = .ok b ↔ ∃ a, x = .ok a ∧ g a = b := by
  rcases x with e | a
  · simp [Functor.map, Except.map]
  · simp [Functor.map, Except.map]

theorem bind_eq_ok {k : α → Except ε β} : x >>= k = .ok b ↔ ∃ a, x = .ok a ∧ k a = .ok b := by
  rcases x with e | a
  · simp [bind, Except.bind]
  · simp [bind, Except.bind]

theorem bind_eq_error {f : ε} {k : α → Except ε β} :
    x >>= k = .error f ↔ x = .error f ∨ ∃ a, x = .ok a ∧ k a = .error f := by
  rcases x with e | a
  · simp [bind, Except.bind]
  · simp [bind, Except.bind]

theorem bind_error (e : ε) (k : α → Except ε β) : (.error e : Except ε α) >>= k = .error e := rfl

end

namespace Reading
variable {m : ImuSample} {r : SensorReading}

theorem guarded_eq_ok {α : Type} {present : Bool} {value : Except Fault α} {o : Option α} :
    guarded present value = .ok o ↔
      (present = true ∧ ∃ a, value = .ok a ∧ o = some a) ∨ (present = false ∧ o = none) := by
  cases present with
  | false => simp [guarded, eq_comm]
  | true => cases value <;> simp [guarded, Functor.map, Except.map, eq_comm]

theorem ofScaledImu_eq_ok :
    ofScaledImu m = .ok r ↔ ∃ gyro acc mag time, toFloats m.gyro = .ok gyro ∧
      toFloats m.acc = .ok acc ∧ toFloats m.mag = .ok mag ∧ m.time.times Units.msToS = .ok time ∧
      r = { deviceTime := time
            inertial := some ⟨.ofAircraft (gyro.scale Units.millirsToRadsec),
              .ofAircraft (acc.scale Units.milligToMs2)⟩
            magneticField := some (Frames.vectorToBase (mag.scale Units.millitToTesla)) } := by
  simp only [ofScaledImu, bind_eq_ok, pure_eq_ok]
  constructor
  · rintro ⟨gyro, hg, acc, ha, mag, hm, time, ht, rfl⟩
    exact ⟨gyro, acc, mag, time, hg, ha, hm, ht, rfl⟩
  · rintro ⟨gyro, acc, mag, time, hg, ha, hm, ht, rfl⟩
    exact ⟨gyro, hg, acc, ha, mag, hm, time, ht, rfl⟩

theorem ofRawImu_eq_ok {ardupilot : Bool} :
    ofRawImu m ardupilot = .ok r ↔ ∃ gyro acc mag time, toFloats m.gyro = .ok gyro ∧
      toFloats m.acc = .ok acc ∧ toFloats m.mag = .ok mag ∧ m.time.times Units.usToS = .ok time ∧
      r = { deviceTime := time
            inertial := some ⟨.ofAircraft (gyro.scale Units.millirsToRadsec),
              .ofAircraft (if ardupilot then acc.scale Units.milligToMs2 else acc)⟩
            magneticField := some (Frames.vectorToBase (mag.scale Units.millitToTesla))
            accelerationUntrusted := !ardupilot } := by
  simp only [ofRawImu, bind_eq_ok, pure_eq_ok]
  constructor
  · rintro ⟨gyro, hg, acc, ha, mag, hm, time, ht, rfl⟩
    exact ⟨gyro, acc, mag, time, hg, ha, hm, ht, rfl⟩
  · rintro ⟨gyro, acc, mag, time, hg, ha, hm, ht, rfl⟩
    exact ⟨gyro, hg, acc, ha, mag, hm, time, ht, rfl⟩

theorem ofScaledPressure_eq_ok {m : ScaledPressure} :
    ofScaledPressure m = .ok r ↔ ∃ time pressure temperature,
      m.timeBootMs.times Units.msToS = .ok time ∧
      m.pressAbs.times Units.hectopascalToPascal = .ok pressure ∧
      m.temperature.dividedBy Units.centi = .ok temperature ∧
      r = { deviceTime := time, fluidPressure := some pressure, temperature := some temperature } := by
  simp only [ofScaledPressure, bind_eq_ok, pure_eq_ok]
  constructor
  · rintro ⟨time, ht, pressure, hp, temperature, hc, rfl⟩
    exact ⟨time, pressure, temperature, ht, hp, hc, rfl⟩
  · rintro ⟨time, pressure, temperature, ht, hp, hc, rfl⟩
    exact ⟨time, ht, pressure, hp, temperature, hc, rfl⟩

/-- The inertial group of a high resolution message is there exactly if it is announced. -/
theorem inertial_of_ofHighresImu {m : HighresImu} (h : ofHighresImu m = .ok r) :
    r.accelerationUntrusted = false ∧ ∃ flags, m.fieldsUpdated.toInt = .ok flags ∧
      ((∃ i < 6, flags.testBit i = true) ∧
        (∃ gyro acc, toFloats m.gyro = .ok gyro ∧ toFloats m.acc = .ok acc ∧
          r.inertial = some ⟨.ofAircraft gyro, .ofAircraft acc⟩) ∨
      (¬ ∃ i < 6, flags.testBit i = true) ∧ r.inertial = none) := by
  simp only [ofHighresImu, bind_eq_ok, pure_eq_ok] at h
  obtain ⟨time, -, flags, hf, inertial, hi, magneticField, -, fluidPressure, -, temperature, -, rfl⟩ := h
  refine ⟨rfl, flags, hf, ?_⟩
  rw [← HighresImu.hasAny_accelGyroMask]
  rcases guarded_eq_ok.1 hi with ⟨hany, i, hv, rfl⟩ | ⟨hany, rfl⟩
  · simp only [bind_eq_ok, pure_eq_ok] at hv
    obtain ⟨gyro, hg, acc, ha, rfl⟩ := hv
    exact .inl ⟨hany, gyro, acc, hg, ha, rfl⟩
  · exact .inr ⟨by simp [hany], rfl⟩

end Reading

namespace Message

/-- Whether a message carries an inertial group. -/
def hasInertial : Message → Bool
  | highresImu m => match m.fieldsUpdated.toInt with
    | .ok flags => (List.range 6).any fun i => flags.testBit i
    | .error _ => false
  | rawImu _ | scaledImu _ => true
  | attitude _ | attitudeQuaternion _ | scaledPressure _ => false

/-- What attitude records repeat after an inertial message: its acceleration in SI units, and none
where the unit is not known. -/
def Leaves : Message → Bool → VectorPair → Prop
  | highresImu m, _, pair => ∃ a, Reading.toFloats m.acc = .ok a ∧ pair = ⟨Frames.vectorToBase a, a⟩
  | scaledImu m, _, pair | rawImu m, true, pair => ∃ v, Reading.toFloats m.acc = .ok v ∧
    ∃ a, a = v.scale Units.milligToMs2 ∧ pair = ⟨Frames.vectorToBase a, a⟩
  | rawImu _, false, pair => pair = .zero
  | attitude _, _, _ | attitudeQuaternion _, _, _ | scaledPressure _, _, _ => False

end Message

/-- The acceleration to be remembered after a reading, where `before` was before it. -/
def SensorReading.remembered (r : SensorReading) (before : VectorPair) : VectorPair :=
  if r.accelerationUntrusted then .zero else (r.inertial.map (·.acceleration)).getD before

theorem Message.leaves_of_reading {m : Message} {ardupilot : Bool} {r : SensorReading}
    (h : Reading.ofMessage m ardupilot = .ok (.sensors r)) (before : VectorPair) :
    if m.hasInertial then m.Leaves ardupilot (r.remembered before) else r.remembered before = before := by
  cases m <;> simp only [Reading.ofMessage, map_eq_ok, reduceCtorEq, and_false, exists_false,
    Reading.sensors.injEq, exists_eq_right] at h
  case highresImu m =>
    obtain ⟨hu, flags, hf, ⟨hb, gyro, acc, -, ha, hi⟩ | ⟨hb, hi⟩⟩ := Reading.inertial_of_ofHighresImu h
    · rw [if_pos (by simpa [hasInertial, hf] using hb)]
      exact ⟨acc, ha, by simp [SensorReading.remembered, hu, hi, VectorPair.ofAircraft]⟩
    · rw [if_neg (by simpa [hasInertial, hf] using hb)]
      simp [SensorReading.remembered, hu, hi]
  case rawImu m =>
    obtain ⟨gyro, acc, mag, time, -, ha, -, -, rfl⟩ := Reading.ofRawImu_eq_ok.1 h
    cases ardupilot with
    | false => rfl
    | true => exact ⟨acc, ha, _, rfl, rfl⟩
  case scaledImu m =>
    obtain ⟨gyro, acc, mag, time, -, ha, -, -, rfl⟩ := Reading.ofScaledImu_eq_ok.1 h
    exact ⟨acc, ha, _, rfl, rfl⟩
  case scaledPressure m =>
    obtain ⟨time, pressure, temperature, -, -, -, rfl⟩ := Reading.ofScaledPressure_eq_ok.1 h
    rfl

end InertialRelay
