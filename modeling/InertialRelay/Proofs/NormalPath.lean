import InertialRelay.Proofs.AccelerationMemory
import InertialRelay.Proofs.Halving
import Mathlib.Data.List.Forall2

/-!
# The normal path

`Node.run_handle_returns`: what a node makes of a message whose integers are in the ranges of the wire, its
other fields being any binary64 values. With clocks that read floats and a sink that takes every record the
call returns, except for one case: an accepted attitude in angles one of which is infinite, and so has no
sine. Any other field may be infinite or NaN.
-/

namespace InertialRelay

section
variable {ε α β : Type} {x : Except ε α} {k : α → Except ε β}

theorem bind_returns (hx : ∃ a, x = .ok a) (hk : ∀ a, ∃ b, k a = .ok b) : ∃ b, x >>= k = .ok b := by
  obtain ⟨a, rfl⟩ := hx
  exact hk a

theorem map_returns (g : α → β) (hx : ∃ a, x = .ok a) : ∃ b, g <$> x = .ok b := by
  obtain ⟨a, rfl⟩ := hx
  exact ⟨g a, rfl⟩

end

theorem Binary64.twoTo_lt_sub {a b c : Nat} (hab : a < b) (hbc : b < c) : 2 ^ a < twoTo c - twoTo b := by
  have h : 2 ^ b + 2 ^ b ≤ 2 ^ c := by
    rw [← Nat.two_mul, ← Nat.pow_succ']
    exact Nat.pow_le_pow_right (by decide) hbc
  have h' : 2 ^ a < 2 ^ b := Nat.pow_lt_pow_right (by decide) hab
  exact h'.trans_le (Nat.le_sub_of_add_le h)

namespace Num
variable {a : Num}

/-- Whether a number has a nearest binary64 value. -/
def Fits (a : Num) : Prop := ∃ x, a.toFloat = .ok x

def isInf : Num → Bool
  | int _ => false
  | real x => x.isInf

theorem fits_real (x : Float) : (real x).Fits := ⟨x, rfl⟩

theorem fits_int {n : Int} (h : n.natAbs < 2 ^ 64) : (int n).Fits := by
  have hn : ¬ Binary64.tooLarge ≤ n.natAbs :=
    Nat.not_le_of_lt (h.trans (Binary64.twoTo_lt_sub (by decide) (by decide)))
  have ho : Binary64.ofInt? n = some (Float.ofInt n) := if_neg hn
  refine ⟨Float.ofInt n, ?_⟩
  -- `delta`, because an equation of `toFloat` would be found by evaluating the bound
  delta toFloat
  dsimp only
  rw [ho]

theorem Fits.times (h : a.Fits) (c : Float) : ∃ x, a.times c = .ok x :=
  bind_returns h fun _ => ⟨_, rfl⟩

theorem Fits.dividedBy (h : a.Fits) (c : Float) : ∃ x, a.dividedBy c = .ok x :=
  bind_returns h fun _ => ⟨_, rfl⟩

theorem Fits.real_add (h : a.Fits) (x : Float) : ∃ y, (real x).add a = .ok (.real y) := by
  obtain ⟨y, hy⟩ := h
  have hx : (real x).toFloat = .ok x := rfl
  refine ⟨x + y, ?_⟩
  cases a with
  | real z => cases hy; rfl
  | int n =>
    delta add
    dsimp only
    rw [hx, hy]
    rfl

end Num

/-! ## Fields on the wire -/

inductive FieldType where
  | uint16
  | uint32
  | uint64
  | int16
  | real

namespace FieldType
variable {a : Num}

/-- Whether a number is a value of a field of this type. -/
def Admits : FieldType → Num → Prop
  | uint16, .int n => 0 ≤ n ∧ n < 2 ^ 16
  | uint32, .int n => 0 ≤ n ∧ n < 2 ^ 32
  | uint64, .int n => 0 ≤ n ∧ n < 2 ^ 64
  | int16, .int n => -2 ^ 15 ≤ n ∧ n < 2 ^ 15
  | real, .real _ => True
  | _, _ => False

theorem Admits.fits {t : FieldType} (h : t.Admits a) : a.Fits := by
  cases a with
  | real x => exact Num.fits_real x
  | int n => cases t <;> simp only [Admits] at h <;> exact Num.fits_int (by omega)

theorem Admits.exists_real (h : real.Admits a) : ∃ x, a = .real x := by
  cases a with
  | real x => exact ⟨x, rfl⟩
  | int n => exact h.elim

theorem Admits.exists_int (h : uint16.Admits a) : ∃ n, a = .int n := by
  cases a with
  | int n => exact ⟨n, rfl⟩
  | real x => exact h.elim

end FieldType

/-- The types of the fields of a kind, in the order of `Kind.fieldNames`. -/
def Kind.fieldTypes : Kind → List FieldType
  | attitude => .uint32 :: List.replicate 6 .real
  | attitudeQuaternion => .uint32 :: List.replicate 7 .real
  | highresImu => .uint64 :: List.replicate 13 .real ++ [.uint16]
  | rawImu => .uint64 :: List.replicate 9 .int16
  | scaledImu => .uint32 :: List.replicate 9 .int16
  | scaledPressure => [.uint32, .real, .real, .int16]

namespace Message
variable {m : Message}

/-- Whether every field has a value of the type that it has on the wire. -/
def OnWire (m : Message) : Prop :=
  List.Forall₂ (fun t (field : String × Num) => t.Admits field.2) m.kind.fieldTypes m.fields

def hasInfiniteAngle : Message → Bool
  | attitude m => m.roll.isInf || m.pitch.isInf || m.yaw.isInf
  | _ => false

theorem fits_of_forall₂ {ts : List FieldType} {fields : List (String × Num)}
    (h : List.Forall₂ (fun t field => t.Admits field.2) ts fields) : ∀ field ∈ fields, field.2.Fits := by
  induction h with
  | nil => exact fun _ hf => absurd hf List.not_mem_nil
  | cons hd _ ih => exact List.forall_mem_cons.2 ⟨hd.fits, ih⟩

theorem OnWire.fits (h : m.OnWire) : ∀ field ∈ m.fields, field.2.Fits := fits_of_forall₂ h

end Message

/-! ## Readings that cannot fail -/

namespace Quaternion
variable {x y z : Float}

theorem halfAngle_returns (h : x.isInf = false) : ∃ cs, halfAngle (.real x) = .ok cs := by
  have hd : (Num.real x).dividedBy 2 = .ok (x / 2) := rfl
  refine ⟨(Binary64.cos (x / 2), Binary64.sin (x / 2)), ?_⟩
  rw [halfAngle, hd]
  simp only [bind, Except.bind, Binary64.isInf_half, h, Bool.false_eq_true, if_false]
  rfl

theorem halfAngle_infinite (h : x.isInf = true) : halfAngle (.real x) = .error .domain := by
  have hd : (Num.real x).dividedBy 2 = .ok (x / 2) := rfl
  rw [halfAngle, hd]
  simp only [bind, Except.bind, Binary64.isInf_half, h, if_true]
  rfl

theorem ofAngles_returns (hx : x.isInf = false) (hy : y.isInf = false) (hz : z.isInf = false) :
    ∃ q, ofAngles (.real x) (.real y) (.real z) = .ok q :=
  bind_returns (halfAngle_returns hx) fun _ => bind_returns (halfAngle_returns hy) fun _ =>
    bind_returns (halfAngle_returns hz) fun _ => ⟨_, rfl⟩

theorem ofAngles_infinite (h : (x.isInf || y.isInf || z.isInf) = true) :
    ofAngles (.real x) (.real y) (.real z) = .error .domain := by
  unfold ofAngles
  cases hx : x.isInf with
  | true => rw [halfAngle_infinite hx, bind_error]
  | false =>
    obtain ⟨_, hcs⟩ := halfAngle_returns hx
    rw [hcs]
    show halfAngle (.real y) >>= _ = _
    cases hy : y.isInf with
    | true => rw [halfAngle_infinite hy, bind_error]
    | false =>
      obtain ⟨_, hcs⟩ := halfAngle_returns hy
      rw [hcs]
      show halfAngle (.real z) >>= _ = _
      have hz : z.isInf = true := by simpa [hx, hy] using h
      rw [halfAngle_infinite hz, bind_error]

end Quaternion

namespace Reading

theorem toFloats_returns {v : Vec3 Num} (hx : v.x.Fits) (hy : v.y.Fits) (hz : v.z.Fits) :
    ∃ w, toFloats v = .ok w :=
  bind_returns hx fun _ => bind_returns hy fun _ => bind_returns hz fun _ => ⟨_, rfl⟩

theorem guarded_returns {α : Type} {value : Except Fault α} (present : Bool) (h : ∃ a, value = .ok a) :
    ∃ o, guarded present value = .ok o := by
  cases present with
  | false => exact ⟨none, rfl⟩
  | true => exact map_returns some h

theorem ofQuaternion_returns {time : Num} {rates : Vec3 Num} (ht : time.Fits) (hx : rates.x.Fits)
    (hy : rates.y.Fits) (hz : rates.z.Fits) (q : Quaternion Float) :
    ∃ r, ofQuaternion time rates q = .ok r :=
  bind_returns (toFloats_returns hx hy hz) fun _ => bind_returns (ht.times _) fun _ => ⟨_, rfl⟩

theorem ofAttitude_onWire {m : Attitude} (h : (Message.attitude m).OnWire) :
    if (Message.attitude m).hasInfiniteAngle then ofAttitude m = .error .domain
    else ∃ r, ofAttitude m = .ok r := by
  obtain ⟨time, roll, pitch, yaw, rates⟩ := m
  obtain ⟨ht, hroll, hpitch, hyaw, hx, hy, hz⟩ := by
    simpa [Message.OnWire, Message.kind, Kind.fieldTypes, Message.fields] using h
  obtain ⟨x, rfl⟩ := hroll.exists_real
  obtain ⟨y, rfl⟩ := hpitch.exists_real
  obtain ⟨z, rfl⟩ := hyaw.exists_real
  split
  next hinf => rw [ofAttitude, Quaternion.ofAngles_infinite hinf, bind_error]
  next hinf =>
    simp only [Message.hasInfiniteAngle, Num.isInf, Bool.not_eq_true, Bool.or_eq_false_iff] at hinf
    obtain ⟨⟨hx', hy'⟩, hz'⟩ := hinf
    exact bind_returns (Quaternion.ofAngles_returns hx' hy' hz') fun q =>
      ofQuaternion_returns ht.fits hx.fits hy.fits hz.fits q

theorem ofAttitudeQuaternion_returns {m : AttitudeQuaternion} (h : (Message.attitudeQuaternion m).OnWire) :
    ∃ r, ofAttitudeQuaternion m = .ok r := by
  have hf := h.fits
  simp only [Message.fields, List.forall_mem_cons] at hf
  obtain ⟨ht, hw, hx, hy, hz, hrx, hry, hrz, -⟩ := hf
  have hq : ∃ q, m.orientation.mapM Num.toFloat = .ok q :=
    bind_returns hw fun _ => bind_returns hx fun _ => bind_returns hy fun _ => bind_returns hz fun _ =>
      ⟨_, rfl⟩
  exact bind_returns hq fun q => ofQuaternion_returns ht hrx hry hrz q

theorem ofHighresImu_returns {m : HighresImu} (h : (Message.highresImu m).OnWire) :
    ∃ r, ofHighresImu m = .ok r := by
  have hf := h.fits
  simp only [Message.fields, List.forall_mem_cons] at hf
  obtain ⟨ht, hax, hay, haz, hgx, hgy, hgz, hmx, hmy, hmz, hp, -, -, hc, -, -⟩ := hf
  obtain ⟨-, -, -, -, -, -, -, -, -, -, -, -, -, -, hflags⟩ := by
    simpa [Message.OnWire, Message.kind, Kind.fieldTypes, Message.fields] using h
  have hint : ∃ n, m.fieldsUpdated.toInt = .ok n := by
    obtain ⟨flags, hflags⟩ := hflags.exists_int
    exact ⟨flags, by rw [hflags]; rfl⟩
  have hinertial {flags : Bool} := guarded_returns flags <|
    bind_returns (toFloats_returns hgx hgy hgz) fun gyro =>
      bind_returns (toFloats_returns hax hay haz) fun acc =>
        ⟨(⟨.ofAircraft gyro, .ofAircraft acc⟩ : InertialReading), rfl⟩
  have hmag {flags : Bool} := guarded_returns flags <|
    bind_returns (toFloats_returns hmx hmy hmz) fun mag =>
      ⟨Frames.vectorToBase (mag.scale Units.gaussToTesla), rfl⟩
  exact bind_returns (ht.times _) fun _ => bind_returns hint fun _ => bind_returns hinertial fun _ =>
    bind_returns hmag fun _ => bind_returns (guarded_returns _ (hp.times _)) fun _ =>
      bind_returns (guarded_returns _ hc) fun _ => ⟨_, rfl⟩

theorem toFloats_sample {m : ImuSample} {name : String} (h : ∀ field ∈ m.fields name, field.2.Fits) :
    m.time.Fits ∧ (∃ v, toFloats m.acc = .ok v) ∧ (∃ v, toFloats m.gyro = .ok v) ∧
      ∃ v, toFloats m.mag = .ok v := by
  simp only [ImuSample.fields, List.forall_mem_cons] at h
  obtain ⟨ht, hax, hay, haz, hgx, hgy, hgz, hmx, hmy, hmz, -⟩ := h
  exact ⟨ht, toFloats_returns hax hay haz, toFloats_returns hgx hgy hgz, toFloats_returns hmx hmy hmz⟩

theorem ofScaledPressure_returns {m : ScaledPressure} (h : (Message.scaledPressure m).OnWire) :
    ∃ r, ofScaledPressure m = .ok r := by
  have hf := h.fits
  simp only [Message.fields, List.forall_mem_cons] at hf
  obtain ⟨ht, hp, -, hc, -⟩ := hf
  exact bind_returns (ht.times _) fun _ => bind_returns (hp.times _) fun _ =>
    bind_returns (hc.dividedBy _) fun _ => ⟨_, rfl⟩

/-- What comes from the wire can be read, unless it has an infinite angle. -/
theorem ofMessage_onWire {m : Message} (h : m.OnWire) (ardupilot : Bool) :
    if m.hasInfiniteAngle then ofMessage m ardupilot = .error .domain
    else ∃ r, ofMessage m ardupilot = .ok r := by
  cases m with
  | attitude m =>
    have ha := ofAttitude_onWire h
    split at ha
    next hinf => rw [if_pos hinf, ofMessage, ha]; rfl
    next hinf => rw [if_neg hinf]; exact map_returns attitude ha
  | attitudeQuaternion m => exact map_returns attitude (ofAttitudeQuaternion_returns h)
  | highresImu m => exact map_returns sensors (ofHighresImu_returns h)
  | rawImu m =>
    obtain ⟨ht, hacc, hgyro, hmag⟩ := toFloats_sample h.fits
    exact map_returns sensors <| bind_returns hgyro fun _ => bind_returns hacc fun _ =>
      bind_returns hmag fun _ => bind_returns (ht.times _) fun _ => ⟨_, rfl⟩
  | scaledImu m =>
    obtain ⟨ht, hacc, hgyro, hmag⟩ := toFloats_sample h.fits
    exact map_returns sensors <| bind_returns hgyro fun _ => bind_returns hacc fun _ =>
      bind_returns hmag fun _ => bind_returns (ht.times _) fun _ => ⟨_, rfl⟩
  | scaledPressure m => exact map_returns sensors (ofScaledPressure_returns h)

end Reading

/-! ## Calls that return -/

/-- Clocks that read floats, and an offset between them that is not too large for one. -/
structure Ambient.Regular (env : Ambient) : Prop where
  wall : ∀ reading, ∃ x, env.wall reading = .real x
  mono : env.FloatClock
  offset : ∀ o ∈ env.offset, o.Fits

theorem Ambient.regular_default : ({} : Ambient).Regular where
  wall _ := ⟨0, rfl⟩
  mono := ⟨0, rfl⟩
  offset o ho := by cases ho

theorem Header.atDeviceTime_returns {env : Ambient} (h : env.Regular) (reading : Nat) (frame : String)
    (time : Float) : ∃ header, atDeviceTime env.offset (env.wall reading) frame (.real time) = .ok header := by
  obtain ⟨x, hx⟩ := h.wall reading
  have hwall : ∃ header, ofStamp (env.wall reading) frame = .ok header := ⟨⟨x, frame⟩, by rw [hx]; rfl⟩
  cases ho : env.offset with
  | none => exact hwall
  | some offset =>
    unfold atDeviceTime
    dsimp only
    split
    · exact hwall
    · obtain ⟨y, hy⟩ := (h.offset offset ho).real_add time
      exact ⟨⟨y, frame⟩, by rw [hy]; rfl⟩

namespace Sink
variable {σ : Type}

/-- A sink that takes every record. -/
def Quiet (sink : Sink σ) : Prop := ∀ o s, (sink.publish o s).fault = none

theorem Quiet.publishAll {sink : Sink σ} (h : sink.Quiet) (outputs : List Output) (s : σ) :
    (sink.publishAll outputs s).fault = none := by
  unfold Sink.publishAll
  induction outputs generalizing s with
  | nil => rfl
  | cons o rest ih =>
    simp only [Reaction.untilFault, h o s]
    exact ih (sink.publish o s).state

end Sink

namespace Node
variable {σ : Type} {n : Node} {env : Ambient} {m : Message}

theorem offer_returns (hw : n.assembler.warning.Steady) (he : env.Regular) (hm : m.OnWire)
    (h : (n.arbiter.accept m.kind).accepted = true → m.hasInfiniteAngle = false) :
    ∃ outputs, (n.offer env m).outputs = .ok outputs := by
  cases ha : (n.arbiter.accept m.kind).accepted with
  | false => exact ⟨[], by rw [offer_refused ha]⟩
  | true =>
    obtain ⟨r, hr⟩ : ∃ r, Reading.ofMessage m env.ardupilot = .ok r := by
      have hread := Reading.ofMessage_onWire hm env.ardupilot
      rwa [h ha, if_neg Bool.false_ne_true] at hread
    cases ho : (n.offer env m).outputs with
    | ok outputs => exact ⟨outputs, rfl⟩
    | error f =>
      -- what can be read could only fail where its records are stamped
      rcases unfit_of_fault hw he.mono ho with hf | ⟨_, reading, frame, -, hf⟩
      · rw [hr] at hf
        cases hf
      · obtain ⟨header, hh⟩ := Header.atDeviceTime_returns he reading frame _
        rw [hh] at hf
        cases hf

theorem handle_returns {sink : Sink σ} (hs : sink.Quiet) (s : σ) {outputs : List Output}
    (h : (n.offer env m).outputs = .ok outputs) :
    (n.handle sink s env m).result = .ok outputs.length := by
  simp [handle, h, hs.publishAll outputs s]

/-- After any calls on a new node, a message from the wire is handled without a fault, unless it is accepted
and has an infinite angle. -/
theorem run_handle_returns {sink : Sink σ} (hs : sink.Quiet) {c : ImuConfig} (hn : ofConfig c = .ok n)
    {calls : List Call} (hc : ∀ call ∈ calls, call.FloatClock) (s : σ) (he : env.Regular) (hm : m.OnWire) :
    let result := ((n.run calls).handle sink s env m).result
    let accepted := ((n.run calls).arbiter.accept m.kind).accepted
    ((accepted = true → m.hasInfiniteAngle = false) → ∃ count, result = .ok count) ∧
    (accepted = true → m.hasInfiniteAngle = true → result = .error .domain) := by
  intro result accepted
  constructor
  · intro hfin
    obtain ⟨outputs, ho⟩ := offer_returns (run_steady hn hc) he hm hfin
    exact ⟨outputs.length, handle_returns hs s ho⟩
  · intro ha hinf
    have hr := Reading.ofMessage_onWire hm env.ardupilot
    rw [if_pos hinf] at hr
    exact handle_result_of_error sink s (by rw [offer_unread ha hr])

/-- An attitude of which little can be said is published, after an acceleration in an unknown unit. -/
theorem run_handle_returns_nan :
    let c : ImuConfig := ⟨"base_link", 0, 0, 0, 0, {}⟩
    let n : Node :=
      { assembler := { labels := ⟨"base_link", {}, .unknown, .unknown, .unknown, .unknown⟩ } }
    let zero : Vec3 Num := ⟨.int 0, .int 0, .int 0⟩
    let raw : Message := .rawImu ⟨.int 0, zero, zero, zero⟩
    let nan : Num := .real (.ofBits 0x7ff8000000000000)
    let infinity : Num := .real (.ofBits 0x7ff0000000000000)
    let m : Message := .attitude ⟨.int 4294967295, nan, .real 0, nan, ⟨infinity, nan, infinity⟩⟩
    (Sink.recording.Quiet ∧ ofConfig c = .ok n ∧ (∀ call ∈ [Call.handle {} raw], call.FloatClock) ∧
      ({} : Ambient).Regular ∧ m.OnWire) ∧
      ∃ count, ((n.run [.handle {} raw]).handle Sink.recording [] {} m).result = .ok count := by
  intro c n zero raw nan infinity m
  have hs : Sink.recording.Quiet := fun _ _ => rfl
  have hn : ofConfig c = .ok n := ofConfig_zero "base_link" {}
  have hc : ∀ call ∈ [Call.handle {} raw], call.FloatClock := by
    simpa [Call.FloatClock] using ⟨0, rfl⟩
  have he : ({} : Ambient).Regular := Ambient.regular_default
  have hm : m.OnWire := by
    simp [Message.OnWire, Message.kind, Kind.fieldTypes, Message.fields, FieldType.Admits, m, nan, infinity]
  have hfin : m.hasInfiniteAngle = false := by decide +kernel
  exact ⟨⟨hs, hn, hc, he, hm⟩, (run_handle_returns hs hn hc [] he hm).1 fun _ => hfin⟩

/-- An attitude with an infinite roll angle is a fault. -/
theorem handle_infinite_roll :
    let c : ImuConfig := ⟨"base_link", 0, 0, 0, 0, {}⟩
    let n : Node :=
      { assembler := { labels := ⟨"base_link", {}, .unknown, .unknown, .unknown, .unknown⟩ } }
    let infinity : Num := .real (.ofBits 0x7ff0000000000000)
    let m : Message := .attitude ⟨.int 1000, infinity, .real 0, .real 0, ⟨.real 0, .real 0, .real 0⟩⟩
    (Sink.recording.Quiet ∧ ofConfig c = .ok n ∧ ({} : Ambient).Regular ∧ m.OnWire) ∧
      (n.handle Sink.recording [] {} m).result = .error .domain := by
  intro c n infinity m
  have hm : m.OnWire := by
    simp [Message.OnWire, Message.kind, Kind.fieldTypes, Message.fields, FieldType.Admits, m, infinity]
  exact ⟨⟨fun _ _ => rfl, ofConfig_zero "base_link" {}, Ambient.regular_default, hm⟩, by rfl⟩

end Node
end InertialRelay
