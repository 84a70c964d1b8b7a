import InertialRelay.Proofs.AttitudeViews

/-!
# The two forms of an attitude

`Node.attitude_forms_agree`: an attitude in roll, pitch and yaw and the same attitude as a quaternion come to the same
records, or to the same fault, and leave the same behind. The quaternion is the one that the angles are turned into,
so the two messages have one reading; from there on a node only looks at its labels, at the acceleration it remembers
and at the host clock.
-/

namespace InertialRelay

namespace Quaternion

/-- The components as the fields of a message hold them. -/
def toNums (q : Quaternion Float) : Quaternion Num := ⟨.real q.w, .real q.x, .real q.y, .real q.z⟩

theorem mapM_toNums (q : Quaternion Float) : q.toNums.mapM Num.toFloat = .ok q := rfl

end Quaternion

theorem Reading.ofAttitude_of_angles {roll pitch yaw : Num} {q : Quaternion Float}
    (hq : Quaternion.ofAngles roll pitch yaw = .ok q) (time : Num) (rates : Vec3 Num) :
    ofAttitude ⟨time, roll, pitch, yaw, rates⟩ = ofAttitudeQuaternion ⟨time, q.toNums, rates⟩ :=
  calc ofAttitude ⟨time, roll, pitch, yaw, rates⟩
      = ofQuaternion time rates q := by
        unfold ofAttitude
        rw [hq]
        rfl
    _ = ofAttitudeQuaternion ⟨time, q.toNums, rates⟩ := by
        unfold ofAttitudeQuaternion
        rw [Quaternion.mapM_toNums]
        rfl

theorem Arbiter.accept_attitudeQuaternion (a : Arbiter) : (a.accept .attitudeQuaternion).accepted = true := by
  obtain ⟨attitude, inertial⟩ := a
  cases attitude <;> rfl

namespace Assembler
variable {a a' : Assembler} {env env' : Ambient}

theorem attitudePair_congr (hl : a.labels = a'.labels) (hc : a.acceleration = a'.acceleration)
    (ho : env.offset = env'.offset) (hw : env.wall = env'.wall) (r : AttitudeReading) :
    a.attitudePair env r = a'.attitudePair env' r := by
  simp only [attitudePair, attitudeRecord, hl, hc, ho, hw]

end Assembler

namespace Node
variable {n n' : Node} {env env' : Ambient} {m : Message}

section
variable {x : Except Fault AttitudeReading}

/-- The pair of records that is published is also remembered, and nothing else changes in the assembler. -/
theorem offer_of_pair (ha : (n.arbiter.accept m.kind).accepted = true)
    (hx : Reading.ofMessage m env.ardupilot = .attitude <$> x) {pair : AttitudePair}
    (hp : x >>= n.assembler.attitudePair env = .ok pair) :
    (n.offer env m).outputs = .ok (pair.outputs n.assembler.labels.topics) ∧
      (n.offer env m).node.assembler = { n.assembler with lastAttitude := some pair } := by
  obtain ⟨r, rfl, hr⟩ := bind_eq_ok.1 hp
  have hread : Reading.ofMessage m env.ardupilot = .ok (.attitude r) := hx
  simp [offer_read ha hread, Assembler.assemble, Assembler.attitude, hr, AttitudePair.outputs]

theorem offer_of_no_pair (ha : (n.arbiter.accept m.kind).accepted = true)
    (hx : Reading.ofMessage m env.ardupilot = .attitude <$> x) {f : Fault}
    (hp : x >>= n.assembler.attitudePair env = .error f) :
    (n.offer env m).outputs = .error f ∧ (n.offer env m).node.assembler = n.assembler := by
  cases x with
  | error g =>
    cases hp
    simp [offer_unread ha hx]
  | ok r =>
    have hread : Reading.ofMessage m env.ardupilot = .ok (.attitude r) := hx
    have hr : n.assembler.attitudePair env r = .error f := hp
    simp [offer_read ha hread, Assembler.assemble, Assembler.attitude, hr]

end

/-- The state and the answer of a sink depend on the records alone. -/
theorem handle_congr {σ : Type} (sink : Sink σ) (s : σ) {m' : Message}
    (h : (n.offer env m).outputs = (n'.offer env' m').outputs) :
    (n.handle sink s env m).sink = (n'.handle sink s env' m').sink ∧
      (n.handle sink s env m).result = (n'.handle sink s env' m').result := by
  simp only [handle, h]
  split <;> exact ⟨rfl, rfl⟩

/-- The two messages may reach nodes with different pasts, as long as the acceleration that these remember, their
labels, the offset and the host clock are the same. Where there is a fault, each node keeps the attitude that it had.
The sink may do anything. -/
theorem attitude_forms_agree {σ : Type} (sink : Sink σ) (s : σ) {roll pitch yaw : Num} {q : Quaternion Float}
    (hq : Quaternion.ofAngles roll pitch yaw = .ok q) (ha : (n.arbiter.accept .attitude).accepted = true)
    (hl : n.assembler.labels = n'.assembler.labels) (hc : n.assembler.acceleration = n'.assembler.acceleration)
    (ho : env.offset = env'.offset) (hw : env.wall = env'.wall) (time : Num) (rates : Vec3 Num) :
    let m : Message := .attitude ⟨time, roll, pitch, yaw, rates⟩
    let m' : Message := .attitudeQuaternion ⟨time, q.toNums, rates⟩
    let o := n.offer env m
    let o' := n'.offer env' m'
    ((∃ pair : AttitudePair,
        (o.outputs = .ok (pair.outputs n.assembler.labels.topics) ∧ o'.outputs = o.outputs) ∧
        o.node.assembler.lastAttitude = some pair ∧ o'.node.assembler.lastAttitude = some pair) ∨
      ∃ f, (o.outputs = .error f ∧ o'.outputs = o.outputs) ∧
        o.node.assembler.lastAttitude = n.assembler.lastAttitude ∧
        o'.node.assembler.lastAttitude = n'.assembler.lastAttitude) ∧
    o.node.assembler.acceleration = o'.node.assembler.acceleration ∧
    (n.handle sink s env m).sink = (n'.handle sink s env' m').sink ∧
    (n.handle sink s env m).result = (n'.handle sink s env' m').result := by
  intro m m' o o'
  have ha' : (n'.arbiter.accept m'.kind).accepted = true := n'.arbiter.accept_attitudeQuaternion
  have hm : Reading.ofMessage m env.ardupilot =
      .attitude <$> Reading.ofAttitudeQuaternion ⟨time, q.toNums, rates⟩ :=
    congrArg (Reading.attitude <$> ·) (Reading.ofAttitude_of_angles hq time rates)
  have hpair : n.assembler.attitudePair env = n'.assembler.attitudePair env' :=
    funext (Assembler.attitudePair_congr hl hc ho hw)
  cases hp : Reading.ofAttitudeQuaternion ⟨time, q.toNums, rates⟩ >>= n.assembler.attitudePair env with
  | ok pair =>
    obtain ⟨hout, hleft⟩ := offer_of_pair (m := m) ha hm hp
    obtain ⟨hout', hleft'⟩ := offer_of_pair (m := m') ha' rfl (hpair ▸ hp)
    have hsame : o'.outputs = o.outputs := by rw [hout, hout', hl]
    refine ⟨.inl ⟨pair, ⟨hout, hsame⟩, by rw [hleft], by rw [hleft']⟩, ?_, handle_congr sink s hsame.symm⟩
    rw [hleft, hleft']
    exact hc
  | error f =>
    obtain ⟨hout, hleft⟩ := offer_of_no_pair (m := m) ha hm hp
    obtain ⟨hout', hleft'⟩ := offer_of_no_pair (m := m') ha' rfl (hpair ▸ hp)
    have hsame : o'.outputs = o.outputs := by rw [hout, hout']
    refine ⟨.inr ⟨f, ⟨hout, hsame⟩, by rw [hleft], by rw [hleft']⟩, ?_, handle_congr sink s hsame.symm⟩
    rw [hleft, hleft']
    exact hc

/-- The first message of one node, and a message to another that has an attitude behind it. -/
theorem attitude_forms_agree_half_radian :
    let labels : Labels := ⟨"base_link", {}, .unknown, .unknown, .unknown, .unknown⟩
    let n : Node := { assembler := { labels } }
    let n' := n.run [.handle {} (.attitudeQuaternion ⟨.int 1, ⟨.int 0, .int 1, .int 0, .int 0⟩, ⟨.int 0, .int 0, .int 0⟩⟩)]
    let q : Quaternion Float :=
      ⟨.ofBits 0x3fea862c0c056ed7, .ofBits 0x3fd17e5c61541a41, .ofBits 0x3f87e93b24327e60, .ofBits 0x3fdf3ad602fc164f⟩
    let rates : Vec3 Num := ⟨.int 1, .int 2, .int 3⟩
    let m : Message := .attitude ⟨.int 1500, .real 0.5, .real (-0.25), .int 1, rates⟩
    let m' : Message := .attitudeQuaternion ⟨.int 1500, q.toNums, rates⟩
    let env : Ambient := { offset := some (.int 7) }
    Quaternion.ofAngles (.real 0.5) (.real (-0.25)) (.int 1) = .ok q ∧
      (n.arbiter.accept .attitude).accepted = true ∧ n.assembler.labels = n'.assembler.labels ∧
      n.assembler.acceleration = n'.assembler.acceleration ∧
      n.assembler.lastAttitude ≠ n'.assembler.lastAttitude ∧
      (n.handle Sink.recording [] env m).result = .ok 2 ∧
      (n.handle Sink.recording [] env m).sink = (n'.handle Sink.recording [] env m').sink := by
  intro labels n n' q rates m m' env
  have hq : Quaternion.ofAngles (.real 0.5) (.real (-0.25)) (.int 1) = .ok q := by decide +kernel
  have ha : (n.arbiter.accept .attitude).accepted = true := rfl
  have hl : n.assembler.labels = n'.assembler.labels := by decide +kernel
  have hc : n.assembler.acceleration = n'.assembler.acceleration := by decide +kernel
  have ho : env.offset = env.offset := rfl
  have hw : env.wall = env.wall := rfl
  have hlast : n.assembler.lastAttitude ≠ n'.assembler.lastAttitude := by decide +kernel
  have hcount : (n.handle Sink.recording [] env m).result = .ok 2 := by decide +kernel
  obtain ⟨-, -, hsink, -⟩ := attitude_forms_agree Sink.recording [] hq ha hl hc ho hw (.int 1500) rates
  exact ⟨hq, ha, hl, hc, hlast, hcount, hsink⟩

end Node
end InertialRelay
