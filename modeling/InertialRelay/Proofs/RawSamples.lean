import InertialRelay.Proofs.Readings

/-!
# Raw and scaled samples

`Reading.raw_scaled_agree`: firmware of the ArduPilot family means the same by a raw sample as by a scaled one. On any
other firmware the two still agree in rates and magnetic field; only the acceleration stays as it came, and is not
trusted. What the readings share is computed from the nine values of the sensors alone (`Reading.sensed`), so a value
that cannot be used is the same fault in all of them.
-/

namespace InertialRelay

namespace Reading

/-- The sensors of a sample. The unit of the acceleration is left open. -/
structure Sensed where
  rates : VectorPair
  acc : Vec3 Float
  field : Vec3 Float

def sensed (acc gyro mag : Vec3 Num) : Except Fault Sensed := do
  let gyro ← toFloats gyro
  let acc ← toFloats acc
  let mag ← toFloats mag
  return ⟨.ofAircraft (gyro.scale Units.millirsToRadsec), acc, Frames.vectorToBase (mag.scale Units.millitToTesla)⟩

/-- The reading of sensors at a time, with an acceleration in SI units. -/
def Sensed.reading (s : Sensed) (acceleration : Vec3 Float) (time : Float) : SensorReading where
  deviceTime := time
  inertial := some ⟨s.rates, .ofAircraft acceleration⟩
  magneticField := some s.field

section
variable (time : Num) (acc gyro mag : Vec3 Num)

theorem ofScaledImu_eq :
    ofScaledImu ⟨time, acc, gyro, mag⟩ = sensed acc gyro mag >>= fun s =>
      s.reading (s.acc.scale Units.milligToMs2) <$> time.times Units.msToS := by
  simp only [ofScaledImu, sensed, bind_assoc, pure_bind, map_eq_pure_bind]
  rfl

theorem ofRawImu_eq (ardupilot : Bool) :
    ofRawImu ⟨time, acc, gyro, mag⟩ ardupilot = sensed acc gyro mag >>= fun s =>
      (fun t => { s.reading (if ardupilot then s.acc.scale Units.milligToMs2 else s.acc) t with
        accelerationUntrusted := !ardupilot }) <$> time.times Units.usToS := by
  simp only [ofRawImu, sensed, bind_assoc, pure_bind, map_eq_pure_bind]
  rfl

end

section
variable {acc gyro mag : Vec3 Num}

theorem toFloats_of_sensed {s : Sensed} (h : sensed acc gyro mag = .ok s) :
    toFloats acc = .ok s.acc := by
  simp only [sensed, bind_eq_ok, pure_eq_ok] at h
  obtain ⟨_, -, _, ha, _, -, rfl⟩ := h
  exact ha

/-- Sensors that cannot be read are the fault of one of the three vectors. -/
theorem exists_of_sensed_error {f : Fault} (h : sensed acc gyro mag = .error f) :
    ∃ v ∈ [gyro, acc, mag], toFloats v = .error f := by
  simp only [sensed, bind_eq_error] at h
  rcases h with hg | ⟨_, -, ha | ⟨_, -, hm | ⟨_, -, hr⟩⟩⟩
  · exact ⟨gyro, by simp, hg⟩
  · exact ⟨acc, by simp, ha⟩
  · exact ⟨mag, by simp, hm⟩
  · cases hr

end

/-- Any nine values and any time. A sample without a usable time has the fault of its time in place of the reading. -/
theorem raw_scaled_agree (acc gyro mag : Vec3 Num) :
    (∃ f, (∃ v ∈ [gyro, acc, mag], toFloats v = .error f) ∧ ∀ time ardupilot,
      ofScaledImu ⟨time, acc, gyro, mag⟩ = .error f ∧ ofRawImu ⟨time, acc, gyro, mag⟩ ardupilot = .error f) ∨
    ∃ (rates : VectorPair) (a field : Vec3 Float), toFloats acc = .ok a ∧ ∀ time : Num,
      let trusted (t : Float) : SensorReading :=
        { deviceTime := t
          inertial := some ⟨rates, .ofAircraft (a.scale Units.milligToMs2)⟩
          magneticField := some field
          accelerationUntrusted := false }
      let untrusted (t : Float) : SensorReading :=
        { trusted t with inertial := some ⟨rates, .ofAircraft a⟩, accelerationUntrusted := true }
      ofScaledImu ⟨time, acc, gyro, mag⟩ = trusted <$> time.times Units.msToS ∧
      ofRawImu ⟨time, acc, gyro, mag⟩ true = trusted <$> time.times Units.usToS ∧
      ofRawImu ⟨time, acc, gyro, mag⟩ false = untrusted <$> time.times Units.usToS := by
  cases hs : sensed acc gyro mag with
  | error f =>
    refine .inl ⟨f, exists_of_sensed_error hs, fun time ardupilot => ⟨?_, ?_⟩⟩
    · rw [ofScaledImu_eq, hs, bind_error]
    · rw [ofRawImu_eq, hs, bind_error]
  | ok s =>
    refine .inr ⟨s.rates, s.acc, s.field, toFloats_of_sensed hs, fun time => ⟨?_, ?_, ?_⟩⟩
    · rw [ofScaledImu_eq, hs]
      rfl
    · rw [ofRawImu_eq, hs]
      rfl
    · rw [ofRawImu_eq, hs]
      rfl

end Reading
end InertialRelay
