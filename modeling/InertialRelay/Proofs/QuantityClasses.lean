import InertialRelay.Proofs.Episodes
import InertialRelay.Proofs.Reconnection

/-!
# Quantities apart

Messages about the attitude, inertial messages and messages of pressure go through one arbiter and one
assembler. `Station.classes_independent` says what of it they share: the acceleration that an attitude
repeats, and the refusal of pressure after high resolution messages. Each of the three deletions goes by what
the other messages read of a node (`Node.SensorsAlike`, `Node.AttitudesAlike`); pressure is read by none.
-/

namespace InertialRelay

namespace Arbiter
variable {a a' : Arbiter} {k : Kind}

theorem accept_inertial (a : Arbiter) (h : k.quantity = .attitude) :
    (a.accept k).arbiter.inertial = a.inertial := by
  cases k with
  | attitude | attitudeQuaternion => rfl
  | highresImu | rawImu | scaledImu | scaledPressure => cases h

theorem accept_attitude (a : Arbiter) (h : k.quantity ≠ .attitude) :
    (a.accept k).arbiter.attitude = a.attitude := by
  cases k with
  | attitude | attitudeQuaternion => exact absurd rfl h
  | highresImu | rawImu | scaledImu | scaledPressure => rfl

theorem accept_congr_attitude (hk : k.quantity = .attitude) (h : a.attitude = a'.attitude) :
    (a.accept k).accepted = (a'.accept k).accepted ∧
      (a.accept k).arbiter.attitude = (a'.accept k).arbiter.attitude := by
  cases k with
  | attitude | attitudeQuaternion => simp [accept, AttitudeSource.ofKind?, h]
  | highresImu | rawImu | scaledImu | scaledPressure => cases hk

theorem accept_congr_inertial (hk : k.quantity ≠ .attitude) (h : a.inertial = a'.inertial) :
    (a.accept k).accepted = (a'.accept k).accepted ∧
      (a.accept k).arbiter.inertial = (a'.accept k).arbiter.inertial := by
  cases k with
  | attitude | attitudeQuaternion => exact absurd rfl hk
  | highresImu | rawImu | scaledImu | scaledPressure =>
    simp [accept, AttitudeSource.ofKind?, InertialSource.ofKind?, h]

end Arbiter

namespace Message
variable {m : Message} {ardupilot : Bool} {r : Reading}

theorem sensors_of_reading (hm : m.kind.quantity ≠ .attitude)
    (h : Reading.ofMessage m ardupilot = .ok r) : ∃ q, r = .sensors q := by
  cases r with
  | sensors q => exact ⟨q, rfl⟩
  | attitude q => exact absurd (quantity_of_attitude h) hm

theorem pressure_of_reading (hm : m.kind.quantity = .pressure)
    (h : Reading.ofMessage m ardupilot = .ok r) :
    ∃ q, r = .sensors q ∧ q.inertial = none ∧ q.accelerationUntrusted = false := by
  cases m <;> simp only [kind, Kind.quantity, reduceCtorEq] at hm
  simp only [Reading.ofMessage, map_eq_ok] at h
  obtain ⟨q, hq, rfl⟩ := h
  obtain ⟨time, pressure, temperature, -, -, -, rfl⟩ := Reading.ofScaledPressure_eq_ok.1 hq
  exact ⟨_, rfl, rfl, rfl⟩

end Message

namespace Assembler

/-- The last attitude is neither read nor written where sensors are. -/
theorem sensors_lastAttitude (a : Assembler) (last : Option AttitudePair) (env : Ambient)
    (r : SensorReading) :
    { a with lastAttitude := last }.sensors env r =
      ⟨{ (a.sensors env r).assembler with lastAttitude := last }, (a.sensors env r).log,
        (a.sensors env r).outputs⟩ := by
  have hrem : { a with lastAttitude := last }.remember r.inertial =
      { a.remember r.inertial with lastAttitude := last } := by cases r.inertial <;> rfl
  unfold sensors
  rw [hrem]
  cases Header.atDeviceTime env.offset (env.wall 0) a.labels.frameId (.real r.deviceTime) with
  | error f => rfl
  | ok header =>
    cases r.accelerationUntrusted with
    | false => rfl
    | true =>
      simp only [distrust, if_true]
      cases (a.remember r.inertial).warning.ready env.mono <;> rfl

theorem sensors_of_pressure (a : Assembler) (env : Ambient) {r : SensorReading} (hi : r.inertial = none)
    (hu : r.accelerationUntrusted = false) : (a.sensors env r).assembler = a := by
  unfold sensors
  rw [hi, hu]
  split <;> rfl

end Assembler

namespace Node
variable {n n' : Node}

/-- Whether a call hands over a message about a quantity. -/
def Call.about (q : Quantity) : Call → Bool
  | .handle _ m => m.kind.quantity == q
  | .connectionChanged _ => false

/-- Two nodes that differ in what they know of the attitude at most. -/
structure SensorsAlike (n n' : Node) : Prop where
  inertial : n.arbiter.inertial = n'.arbiter.inertial
  assembler : n'.assembler = { n.assembler with lastAttitude := n'.assembler.lastAttitude }

/-- Two nodes that agree on the source of the attitude and on how records are labelled. -/
structure AttitudesAlike (n n' : Node) : Prop where
  attitude : n.arbiter.attitude = n'.arbiter.attitude
  labels : n.assembler.labels = n'.assembler.labels

theorem SensorsAlike.refl (n : Node) : n.SensorsAlike n := ⟨rfl, rfl⟩

theorem AttitudesAlike.refl (n : Node) : n.AttitudesAlike n := ⟨rfl, rfl⟩

namespace SensorsAlike

theorem drop (h : n.SensorsAlike n') (env : Ambient) {m : Message} (hm : m.kind.quantity = .attitude) :
    (n.offer env m).node.SensorsAlike n' := by
  refine ⟨?_, ?_⟩
  · rw [offer_arbiter, Arbiter.accept_inertial _ hm]
    exact h.inertial
  · cases ha : (n.arbiter.accept m.kind).accepted with
    | false => rw [offer_refused ha]; exact h.assembler
    | true =>
      cases hr : Reading.ofMessage m env.ardupilot with
      | error f => rw [offer_unread ha hr]; exact h.assembler
      | ok r =>
        obtain ⟨r, rfl⟩ := Message.attitude_of_reading hm hr
        obtain ⟨last, hf⟩ := n.assembler.attitude_frame env r
        rw [offer_read ha hr]
        simp only [Assembler.assemble, hf]
        exact h.assembler

theorem keep (h : n.SensorsAlike n') (env : Ambient) {m : Message} (hm : m.kind.quantity ≠ .attitude) :
    (n.offer env m).outputs = (n'.offer env m).outputs ∧
      (n.offer env m).node.SensorsAlike (n'.offer env m).node := by
  obtain ⟨hacc, hin⟩ := Arbiter.accept_congr_inertial hm h.inertial
  rw [← offer_arbiter n env m, ← offer_arbiter n' env m] at hin
  suffices hs : (n.offer env m).outputs = (n'.offer env m).outputs ∧
      (n'.offer env m).node.assembler = { (n.offer env m).node.assembler with
        lastAttitude := (n'.offer env m).node.assembler.lastAttitude } from ⟨hs.1, hin, hs.2⟩
  cases ha : (n.arbiter.accept m.kind).accepted with
  | false =>
    rw [offer_refused ha, offer_refused (hacc.symm.trans ha)]
    exact ⟨rfl, h.assembler⟩
  | true =>
    have ha' := hacc.symm.trans ha
    cases hr : Reading.ofMessage m env.ardupilot with
    | error f =>
      rw [offer_unread ha hr, offer_unread ha' hr]
      exact ⟨rfl, h.assembler⟩
    | ok r =>
      obtain ⟨r, rfl⟩ := Message.sensors_of_reading hm hr
      rw [offer_read ha hr, offer_read ha' hr]
      have hs := n.assembler.sensors_lastAttitude n'.assembler.lastAttitude env r
      rw [← h.assembler] at hs
      simp only [Assembler.assemble, hs]
      exact ⟨trivial, trivial⟩

end SensorsAlike

namespace AttitudesAlike

theorem drop (h : n.AttitudesAlike n') (env : Ambient) {m : Message} (hm : m.kind.quantity ≠ .attitude) :
    (n.offer env m).node.AttitudesAlike n' := by
  refine ⟨?_, (run_labels n [.handle env m]).trans h.labels⟩
  rw [offer_arbiter, Arbiter.accept_attitude _ hm]
  exact h.attitude

theorem symm (h : n.AttitudesAlike n') : n'.AttitudesAlike n := ⟨h.attitude.symm, h.labels.symm⟩

theorem keep (h : n.AttitudesAlike n') (c : Call) : (n.after c).AttitudesAlike (n'.after c) := by
  cases c with
  | connectionChanged connected => exact ⟨rfl, h.labels⟩
  | handle env m =>
    by_cases hm : m.kind.quantity = .attitude
    · have ha := (Arbiter.accept_congr_attitude hm h.attitude).2
      rw [← offer_arbiter n env m, ← offer_arbiter n' env m] at ha
      have hl := run_labels n [.handle env m]
      have hl' := run_labels n' [.handle env m]
      exact ⟨ha, hl.trans (h.labels.trans hl'.symm)⟩
    · exact ((h.drop env hm).symm.drop env hm).symm

theorem outputs (h : n.AttitudesAlike n') (env : Ambient) {m : Message} (hm : m.kind.quantity = .attitude) :
    (n.offer env m).unaccelerated = (n'.offer env m).unaccelerated := by
  have hacc := (Arbiter.accept_congr_attitude hm h.attitude).1
  unfold Offer.unaccelerated
  cases ha : (n.arbiter.accept m.kind).accepted with
  | false => rw [offer_refused ha, offer_refused (hacc.symm.trans ha)]
  | true =>
    have ha' := hacc.symm.trans ha
    cases hr : Reading.ofMessage m env.ardupilot with
    | error f => rw [offer_unread ha hr, offer_unread ha' hr]
    | ok r =>
      obtain ⟨r, rfl⟩ := Message.attitude_of_reading hm hr
      rw [offer_read ha hr, offer_read ha' hr]
      exact (Assembler.attitude_congr h.labels env r).1

end AttitudesAlike

/-- Pressure leaves nothing behind. -/
theorem offer_pressure (n : Node) (env : Ambient) {m : Message} (hm : m.kind.quantity = .pressure) :
    (n.offer env m).node = n := by
  have hk : m.kind = .scaledPressure := by cases m <;> simp_all [Message.kind, Kind.quantity]
  have harb : (n.arbiter.accept m.kind).arbiter = n.arbiter := Arbiter.accept_unchanged (.inr hk)
  cases ha : (n.arbiter.accept m.kind).accepted with
  | false => rw [offer_refused ha]
  | true =>
    cases hr : Reading.ofMessage m env.ardupilot with
    | error f => rw [offer_unread ha hr, harb]
    | ok r =>
      obtain ⟨r, rfl, hi, hu⟩ := Message.pressure_of_reading hm hr
      rw [offer_read ha hr, harb, Assembler.assemble, Assembler.sensors_of_pressure _ _ hi hu]

end Node

namespace Sink
variable {σ α : Type} {sink : Sink σ} {g : Output → α}

/-- Whether a sink fails at a record depends on nothing but what `g` shows of it. -/
def Heeds (sink : Sink σ) (g : Output → α) : Prop :=
  ∀ o o' s s', g o = g o' → (sink.publish o s).fault = (sink.publish o' s').fault

theorem Heeds.attempts (h : sink.Heeds g) {outputs outputs' : List Output}
    (ho : outputs.map g = outputs'.map g) (s s' : σ) :
    (sink.attempts outputs s).map (fun a => (g a.output, a.fault)) =
      (sink.attempts outputs' s').map fun a => (g a.output, a.fault) := by
  induction outputs generalizing outputs' s s' with
  | nil =>
    obtain rfl : outputs' = [] := List.map_eq_nil_iff.1 ho.symm
    rfl
  | cons o rest ih =>
    obtain ⟨o', rest', rfl, ho', hrest⟩ := List.map_eq_cons_iff.1 ho.symm
    have hf := h o o' s s' ho'.symm
    unfold Sink.attempts
    rw [← hf]
    cases (sink.publish o s).fault with
    | some f => simp [ho']
    | none => simp [ho', ih hrest.symm (sink.publish o s).state (sink.publish o' s').state]

end Sink

theorem Node.records_congr {α : Type} {g : Output → α} {n n' : Node} {c : Node.Call}
    (h : (n.outputs c).map (List.map g) = (n'.outputs c).map (List.map g)) :
    (n.records c).map g = (n'.records c).map g := by
  unfold Node.records
  cases ho : n.outputs c with
  | error f =>
    cases ho' : n'.outputs c with
    | error f' => rfl
    | ok outputs' => rw [ho, ho'] at h; cases h
  | ok outputs =>
    cases ho' : n'.outputs c with
    | error f' => rw [ho, ho'] at h; cases h
    | ok outputs' =>
      rw [ho, ho'] at h
      exact Except.ok.inj h

/-- Two runs in which the same messages publish the same, as far as `g` shows it: they have the same to
publish, or the same fault, and a sink that sees no more than that is handed the same. -/
structure SamePublications {σ α : Type} (sink : Sink σ) (g : Output → α) (es es' : List (Episode σ)) :
    Prop where
  calls : es.map (·.call) = es'.map (·.call)
  outputs : (es.map fun e => (e.before.node.outputs e.call).map (List.map g)) =
    es'.map fun e => (e.before.node.outputs e.call).map (List.map g)
  attempts : sink.Heeds g →
    (es.map fun e => e.reply.attempts.map fun a => (g a.output, a.fault)) =
      es'.map fun e => e.reply.attempts.map fun a => (g a.output, a.fault)

namespace Station
variable {σ α : Type} {sink : Sink σ} {g : Output → α} {P : Node → Node → Prop}
  {keep : Episode σ → Bool} {es es' : List (Episode σ)}

theorem samePublications_of_paired
    (h : List.Forall₂ (Paired sink (fun t t' => P t.node t'.node) keep) es es')
    (hshow : ∀ (t t' : Station σ) c, P t.node t'.node → keep (t.episode sink c) = true →
      (t.node.outputs c).map (List.map g) = (t'.node.outputs c).map (List.map g)) :
    SamePublications sink g es' es where
  calls := (map_eq_of_paired h (·.call) fun _ _ _ _ _ => rfl).symm
  outputs := (map_eq_of_paired h _ hshow).symm
  attempts hs := by
    refine (map_eq_of_paired h _ fun t t' c hp hk => ?_).symm
    have hr := Node.records_congr (hshow t t' c hp hk)
    show (t.reply sink c).attempts.map _ = (t'.reply sink c).attempts.map _
    rw [reply_attempts, reply_attempts]
    exact hs.attempts hr t.sink t'.sink

/-- A run with the messages about a quantity, and the run of the same calls without them. -/
theorem paired_without (sink : Sink σ) (q : Quantity) (P : Node → Node → Prop)
    (hdrop : ∀ n n' env m, P n n' → m.kind.quantity = q → P (n.offer env m).node n')
    (hkeep : ∀ n n' (c : Node.Call), P n n' → c.about q = false → P (n.after c) (n'.after c))
    {s : Station σ} (hs : P s.node s.node) (calls : List Node.Call) :
    List.Forall₂ (Paired sink (fun t t' => P t.node t'.node) (!·.call.about q))
      ((s.episodes sink calls).filter (!·.call.about q)) (s.episodes sink (calls.filter (!·.about q))) := by
  rw [← episodes_filter_call sink s]
  refine (kept_episodes (fun t t' => P t.node t'.node) (!·.call.about q) ?_ ?_ hs calls).1
  · intro t t' c hp hc
    rw [call_node, call_node]
    exact hkeep _ _ c hp (by simpa [episode] using hc)
  · intro t t' c hp hc
    rw [call_node]
    cases c with
    | connectionChanged connected => cases hc
    | handle env m => exact hdrop _ _ env m hp (by simpa [episode, Node.Call.about] using hc)

theorem without_attitudes (sink : Sink σ) (s : Station σ) (calls : List Node.Call) :
    SamePublications sink id (s.episodes sink (calls.filter (!·.about .attitude)))
      ((s.episodes sink calls).filter (!·.call.about .attitude)) := by
  have hkept : ∀ env m, (Node.Call.handle env m).about .attitude = false → m.kind.quantity ≠ .attitude := by
    intro env m hc
    simpa [Node.Call.about] using hc
  refine samePublications_of_paired (paired_without sink .attitude Node.SensorsAlike
    (fun n n' env m h hm => h.drop env hm) (fun n n' c h hc => ?_) (.refl s.node) calls) fun t t' c h hc => ?_
  · cases c with
    | connectionChanged connected => exact ⟨rfl, h.assembler⟩
    | handle env m => exact (h.keep env (hkept env m hc)).2
  · cases c with
    | connectionChanged connected => rfl
    | handle env m =>
      have ho := (h.keep env (hkept env m (by simpa [episode] using hc))).1
      exact congrArg (Except.map (List.map id)) ho

theorem without_pressure (sink : Sink σ) (s : Station σ) (calls : List Node.Call) :
    SamePublications sink id (s.episodes sink (calls.filter (!·.about .pressure)))
      ((s.episodes sink calls).filter (!·.call.about .pressure)) :=
  samePublications_of_paired (paired_without sink .pressure Eq
    (fun n _ env _ h hm => (n.offer_pressure env hm).trans h) (fun _ _ _ h _ => by rw [h]) rfl calls)
    fun _ _ _ h _ => by rw [h]

theorem without_inertial (sink : Sink σ) (s : Station σ) (calls : List Node.Call) :
    SamePublications sink Output.unaccelerated
      ((s.episodes sink (calls.filter (!·.about .inertialRaw))).filter (·.call.about .attitude))
      ((s.episodes sink calls).filter (·.call.about .attitude)) := by
  have hpair := paired_without sink .inertialRaw Node.AttitudesAlike
    (fun n n' env m h hm => h.drop env (by simp [hm])) (fun n n' c h _ => h.keep c) (.refl s.node) calls
  have hattitudes : ((s.episodes sink calls).filter (!·.call.about .inertialRaw)).filter
      (·.call.about .attitude) = (s.episodes sink calls).filter (·.call.about .attitude) := by
    rw [List.filter_filter]
    refine List.filter_congr fun e _ => ?_
    rcases e.call with ⟨env, m⟩ | connected
    · cases m <;> rfl
    · rfl
  have hwatched := paired_filter hpair (·.about .attitude)
  rw [hattitudes] at hwatched
  refine samePublications_of_paired hwatched fun t t' c h hc => ?_
  rw [Bool.and_eq_true] at hc
  cases c with
  | connectionChanged connected => cases hc.2
  | handle env m => exact h.outputs env (by simpa [episode, Node.Call.about] using hc.2)

/-- A run is compared with the run of the same calls without the messages about one quantity, with any sink.
Without those about the attitude, and without those about pressure, all other messages publish the same.
Without the inertial messages those about the attitude do, but for the accelerations. -/
theorem classes_independent (sink : Sink σ) (s : Station σ) (calls : List Node.Call) :
    SamePublications sink id (s.episodes sink (calls.filter (!·.about .attitude)))
      ((s.episodes sink calls).filter (!·.call.about .attitude)) ∧
    SamePublications sink id (s.episodes sink (calls.filter (!·.about .pressure)))
      ((s.episodes sink calls).filter (!·.call.about .pressure)) ∧
    SamePublications sink Output.unaccelerated
      ((s.episodes sink (calls.filter (!·.about .inertialRaw))).filter (·.call.about .attitude))
      ((s.episodes sink calls).filter (·.call.about .attitude)) :=
  ⟨without_attitudes sink s calls, without_pressure sink s calls, without_inertial sink s calls⟩

end Station
end InertialRelay
