import InertialRelay.Proofs.Episodes

/-!
# The stamps of the records of one message

`Station.stamps_shared_iff`: which messages are published with one stamp on all their records. A sensor message
is stamped once. The two views of an attitude are stamped one after the other, so where they take their stamp
from the host clock (`Header.hostStamped`) they share it only if the clock reads the same twice.
-/

namespace InertialRelay

namespace Header
variable {offset : Option Num} {wall wall' time : Num} {frame frame' : String} {a b : Header}

/-- Whether something measured at a device time is stamped by the host clock. -/
def hostStamped (offset : Option Num) (time : Num) : Bool :=
  match offset with
  | none => true
  | some _ => time.isNonpositive

theorem toFloat_of_ofStamp {stamp : Num} (h : ofStamp stamp frame = .ok a) : stamp.toFloat = .ok a.stamp := by
  cases stamp with
  | real x =>
    cases h
    rfl
  | int n =>
    -- `delta`, because an equation of either would be found by evaluating the bound
    delta ofStamp at h
    delta Num.toFloat
    dsimp only at h ⊢
    cases hx : Binary64.ofInt? n with
    | none =>
      rw [hx] at h
      cases h
    | some x =>
      rw [hx] at h
      cases h
      rfl

theorem host_stamp (h : atDeviceTime offset wall frame time = .ok a) (hs : hostStamped offset time = true) :
    wall.toFloat = .ok a.stamp := by
  have hwall : ofStamp wall frame = .ok a := by
    cases offset with
    | none => rwa [atDeviceTime] at h
    | some o =>
      have hz : time.isNonpositive = true := hs
      rwa [atDeviceTime, if_pos hz] at h
  exact toFloat_of_ofStamp hwall

theorem device_stamp (h : atDeviceTime offset wall frame time = .ok a) (hs : hostStamped offset time = false) :
    ∃ o, offset = some o ∧ time.add o >>= Num.toFloat = .ok a.stamp := by
  cases offset with
  | none => cases hs
  | some o =>
    have hz : ¬ time.isNonpositive = true := by simpa [hostStamped] using hs
    rw [atDeviceTime, if_neg hz, bind_eq_ok] at h
    obtain ⟨stamp, ha, h⟩ := h
    exact ⟨o, rfl, bind_eq_ok.2 ⟨stamp, ha, toFloat_of_ofStamp h⟩⟩

/-- Two headers of one device time differ in their stamps only where they are stamped by the host clock. -/
theorem stamp_eq_iff (ha : atDeviceTime offset wall frame time = .ok a)
    (hb : atDeviceTime offset wall' frame' time = .ok b) :
    a.stamp = b.stamp ↔ (hostStamped offset time = true → wall.toFloat = wall'.toFloat) := by
  cases hs : hostStamped offset time with
  | true =>
    rw [host_stamp ha hs, host_stamp hb hs]
    simp
  | false =>
    obtain ⟨o, rfl, h⟩ := device_stamp ha hs
    obtain ⟨_, ⟨⟩, h'⟩ := device_stamp hb hs
    have : a.stamp = b.stamp := Except.ok.inj (h.symm.trans h')
    simpa using this

end Header

def Output.stamp (o : Output) : Float := o.record.header.stamp

/-- Whether all records carry one stamp. -/
def OneStamp (outputs : List Output) : Prop := ∀ o ∈ outputs, ∀ o' ∈ outputs, Output.stamp o = Output.stamp o'

namespace Assembler
variable {a : Assembler} {env : Ambient} {outputs : List Output}

theorem sensors_outputs_eq_ok {r : SensorReading} (h : (a.sensors env r).outputs = .ok outputs) :
    ∃ header, Header.atDeviceTime env.offset (env.wall 0) a.labels.frameId (.real r.deviceTime) = .ok header ∧
      outputs = a.sensorOutputs header r := by
  simp only [sensors] at h
  split at h
  · cases h
  next header hh =>
    refine ⟨header, hh, ?_⟩
    split at h
    · split at h
      · cases h
      · exact (Except.ok.inj h).symm
    · exact (Except.ok.inj h).symm

theorem sensors_oneStamp {r : SensorReading} (h : (a.sensors env r).outputs = .ok outputs) :
    OneStamp outputs := by
  obtain ⟨header, -, rfl⟩ := sensors_outputs_eq_ok h
  have hstamp : ∀ o ∈ a.sensorOutputs header r, Output.stamp o = header.stamp := by
    intro o ho
    simp only [sensorOutputs, List.mem_append, Option.mem_toList, Option.map_eq_some_iff] at ho
    rcases ho with ((⟨_, -, rfl⟩ | ⟨_, -, rfl⟩) | ⟨_, -, rfl⟩) | ⟨_, -, rfl⟩ <;> rfl
  intro o ho o' ho'
  rw [hstamp o ho, hstamp o' ho']

theorem attitude_oneStamp_iff {r : AttitudeReading} (h : (a.attitude env r).outputs = .ok outputs) :
    OneStamp outputs ↔
      (Header.hostStamped env.offset (.real r.deviceTime) = true →
        (env.wall 0).toFloat = (env.wall 1).toFloat) := by
  unfold attitude at h
  split at h
  · cases h
  next pair hp =>
    simp only [attitudePair, bind_eq_ok, pure_eq_ok] at hp
    obtain ⟨header, hh, header', hh', rfl⟩ := hp
    cases h
    rw [← Header.stamp_eq_iff hh hh']
    constructor
    · intro hone
      exact hone _ List.mem_cons_self _ (List.mem_cons_of_mem _ List.mem_cons_self)
    · intro he
      simp [OneStamp, Output.stamp, Record.header, attitudeRecord, he]

end Assembler

namespace Node
variable {n : Node} {env : Ambient} {m : Message} {outputs : List Output}

/-- Whether a message is accepted as an attitude whose records are stamped by the host clock. -/
def StampsTwice (n : Node) (env : Ambient) (m : Message) : Prop :=
  (n.arbiter.accept m.kind).accepted = true ∧
    ∃ r, Reading.ofMessage m env.ardupilot = .ok (.attitude r) ∧
      Header.hostStamped env.offset (.real r.deviceTime) = true

theorem offer_oneStamp_iff (h : (n.offer env m).outputs = .ok outputs) :
    OneStamp outputs ↔ (n.StampsTwice env m → (env.wall 0).toFloat = (env.wall 1).toFloat) := by
  cases ha : (n.arbiter.accept m.kind).accepted with
  | false =>
    rw [offer_refused ha] at h
    cases h
    simp [OneStamp, StampsTwice, ha]
  | true =>
    cases hr : Reading.ofMessage m env.ardupilot with
    | error f =>
      rw [offer_unread ha hr] at h
      cases h
    | ok r =>
      rw [offer_read ha hr] at h
      cases r with
      | attitude r => simpa [StampsTwice, ha, hr] using Assembler.attitude_oneStamp_iff h
      | sensors r => simpa [StampsTwice, hr] using Assembler.sensors_oneStamp h

end Node

namespace Station
variable {σ : Type}

/-- Where a call returns, its sink was handed records with one stamp, unless they are the two views of an
attitude and each is stamped by another reading of the host clock. -/
theorem stamps_shared_iff (sink : Sink σ) (t : Station σ) (env : Ambient) (m : Message) {count : Nat}
    (h : (t.reply sink (.handle env m)).result = .ok (some count)) :
    OneStamp ((t.reply sink (.handle env m)).attempts.map (·.output)) ↔
      (t.node.StampsTwice env m → (env.wall 0).toFloat = (env.wall 1).toFloat) := by
  obtain ⟨outputs, ho, hp⟩ := handed_of_result h
  rw [hp]
  exact Node.offer_oneStamp_iff ho

/-- An attitude measured at a known time, while the host clock runs on. -/
theorem stamps_shared_offset :
    let n : Node :=
      { assembler := { labels := ⟨"base_link", {}, .unknown, .unknown, .unknown, .unknown⟩ } }
    let env : Ambient :=
      { offset := some (.real 1), wall := fun reading => if reading = 0 then .real 0 else .real 1 }
    let m : Message :=
      .attitudeQuaternion ⟨.real 5, ⟨.real 1, .real 0, .real 0, .real 0⟩, ⟨.real 0, .real 0, .real 0⟩⟩
    let reply := reply Sink.recording ⟨n, []⟩ (.handle env m)
    reply.result = .ok (some 2) ∧ OneStamp (reply.attempts.map (·.output)) := by
  intro n env m reply
  have hr : reply.result = .ok (some 2) := by rfl
  refine ⟨hr, (stamps_shared_iff Sink.recording ⟨n, []⟩ env m hr).2 ?_⟩
  have hfrom : ∀ r, Reading.ofMessage m env.ardupilot = .ok (.attitude r) →
      Header.hostStamped env.offset (.real r.deviceTime) = false := by
    rintro r ⟨⟩
    decide +kernel
  rintro ⟨-, r, hread, hs⟩
  rw [hfrom r hread] at hs
  cases hs

/-- Without an offset the second view is stamped with the later reading. -/
theorem views_stamped_apart :
    let n : Node :=
      { assembler := { labels := ⟨"base_link", {}, .unknown, .unknown, .unknown, .unknown⟩ } }
    let env : Ambient := { wall := fun reading => if reading = 0 then .real 0 else .real 1 }
    let m : Message :=
      .attitudeQuaternion ⟨.real 5, ⟨.real 1, .real 0, .real 0, .real 0⟩, ⟨.real 0, .real 0, .real 0⟩⟩
    let reply := reply Sink.recording ⟨n, []⟩ (.handle env m)
    Node.ofConfig ⟨"base_link", 0, 0, 0, 0, {}⟩ = .ok n ∧ reply.result = .ok (some 2) ∧
      reply.attempts.map (fun a => Output.stamp a.output) = [0, 1] ∧
      ¬ OneStamp (reply.attempts.map (·.output)) := by
  intro n env m reply
  have hstamps : reply.attempts.map (fun a => Output.stamp a.output) = [0, 1] := by decide +kernel
  refine ⟨Node.ofConfig_zero "base_link" {}, by rfl, hstamps, fun h => ?_⟩
  have hall : ∀ x ∈ ([0, 1] : List Float), ∀ y ∈ ([0, 1] : List Float), x = y := by
    rw [← hstamps]
    simpa [OneStamp] using h
  exact absurd (hall 0 (by simp) 1 (by simp)) (by decide +kernel)

end Station
end InertialRelay
