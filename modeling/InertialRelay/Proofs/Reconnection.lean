import InertialRelay.Proofs.NormalPath

/-!
# What survives a reconnection

`Station.reconnected_like_new`: after a change of the connection a node goes on like a new one. The
acceleration it remembers is all that is left of the time before, and only attitude records show it, until
the first message that leaves another one. The runs are kept together by `Node.Resembles`: their arbiters
and labels are the same, and what else the two nodes remember cannot be seen or is written before it is read.
-/

namespace InertialRelay

/-- A record without its acceleration. -/
def Record.unaccelerated : Record → Record
  | imu r => imu { r with linearAcceleration := .zero }
  | r => r

def Output.unaccelerated (o : Output) : Output := ⟨o.topic, o.record.unaccelerated⟩

/-- What a node offers, but for the accelerations. -/
def Node.Offer.unaccelerated (o : Node.Offer) : Except Fault (List Output) :=
  o.outputs.map (List.map Output.unaccelerated)

namespace Assembler
variable {a a' : Assembler} {env : Ambient}

theorem attitude_congr (h : a.labels = a'.labels) (env : Ambient) (r : AttitudeReading) :
    (a.attitude env r).outputs.map (List.map Output.unaccelerated) =
      (a'.attitude env r).outputs.map (List.map Output.unaccelerated) ∧
    (a.acceleration = a'.acceleration → (a.attitude env r).outputs = (a'.attitude env r).outputs) := by
  simp only [attitude, attitudePair, h]
  cases Header.atDeviceTime env.offset (env.wall 0) a'.labels.frameId (.real r.deviceTime) with
  | error f => exact ⟨rfl, fun _ => rfl⟩
  | ok header =>
    cases Header.atDeviceTime env.offset (env.wall 1) aircraftFrame (.real r.deviceTime) with
    | error f => exact ⟨rfl, fun _ => rfl⟩
    | ok header' =>
      simp only [attitudeRecord, h, bind, Except.bind, pure, Except.pure]
      exact ⟨rfl, fun he => by rw [he]⟩

theorem sensorOutputs_congr (h : a.labels = a'.labels) (header : Header) (r : SensorReading) :
    a.sensorOutputs header r = a'.sensorOutputs header r := by
  simp only [sensorOutputs, rawRecord, h]

theorem sensors_outputs (hw : a.warning.Steady) (hc : env.FloatClock) (r : SensorReading) :
    (a.sensors env r).outputs = (a.sensorOutputs · r) <$>
      Header.atDeviceTime env.offset (env.wall 0) a.labels.frameId (.real r.deviceTime) := by
  unfold sensors
  cases Header.atDeviceTime env.offset (env.wall 0) a.labels.frameId (.real r.deviceTime) with
  | error f => rfl
  | ok header =>
    have hw' : (a.remember r.inertial).warning.Steady := by rwa [remember_warning]
    obtain ⟨a'', log, hd, -, -⟩ := distrust_ok hw' hc
    cases hu : r.accelerationUntrusted with
    | true => simp only [hd, if_true]; rfl
    | false => rfl

end Assembler

theorem Message.quantity_of_attitude {m : Message} {ardupilot : Bool} {r : AttitudeReading}
    (h : Reading.ofMessage m ardupilot = .ok (.attitude r)) : m.kind.quantity = .attitude := by
  cases m <;> simp only [Reading.ofMessage, map_eq_ok, reduceCtorEq, and_false, exists_false] at h <;> rfl

namespace Imprint

theorem leaves_unique {m : Message} {ardupilot : Bool} {p q : VectorPair} (hp : m.Leaves ardupilot p)
    (hq : m.Leaves ardupilot q) : p = q := by
  cases m <;> cases ardupilot <;> simp only [Message.Leaves] at hp hq
  case rawImu.false => rw [hp, hq]
  case highresImu.false | highresImu.true =>
    obtain ⟨a, ha, rfl⟩ := hp
    obtain ⟨b, hb, rfl⟩ := hq
    rw [Except.ok.inj (ha.symm.trans hb)]
  case scaledImu.false | scaledImu.true | rawImu.true =>
    obtain ⟨v, hv, _, rfl, rfl⟩ := hp
    obtain ⟨w, hw, _, rfl, rfl⟩ := hq
    rw [Except.ok.inj (hv.symm.trans hw)]

theorem Follows.unique {i : Imprint} {before before' p q : VectorPair} (hp : Follows (some i) before p)
    (hq : Follows (some i) before' q) : p = q := by
  cases hp with
  | left _ hp => cases hq with
    | left _ hq => exact leaves_unique hp hq

end Imprint

namespace Node

theorem offer_arbiter (n : Node) (env : Ambient) (m : Message) :
    (n.offer env m).node.arbiter = (n.arbiter.accept m.kind).arbiter := by
  unfold offer
  dsimp only
  split
  · split <;> rfl
  · rfl

/-- Two nodes that differ in what they remember, but for their arbiters. -/
structure Resembles (n n' : Node) : Prop where
  arbiter : n.arbiter = n'.arbiter
  labels : n.assembler.labels = n'.assembler.labels
  steady : n.assembler.warning.Steady
  steady' : n'.assembler.warning.Steady

namespace Resembles
variable {n n' : Node} {env : Ambient} {c : Call}

theorem after (h : n.Resembles n') (hc : c.FloatClock) : (n.after c).Resembles (n'.after c) where
  arbiter := by
    cases c with
    | handle env m => rw [Node.after, Node.after, offer_arbiter, offer_arbiter, h.arbiter]
    | connectionChanged connected => rfl
  labels := by
    have hl := run_labels n [c]
    have hl' := run_labels n' [c]
    exact hl.trans (h.labels.trans hl'.symm)
  steady := (after_acceleration h.steady hc).1
  steady' := (after_acceleration h.steady' hc).1

/-- Nodes that resemble each other offer the same, but for the accelerations of an attitude. -/
theorem offer (h : n.Resembles n') (he : env.FloatClock) (m : Message) :
    (n.offer env m).unaccelerated = (n'.offer env m).unaccelerated ∧
    (m.kind.quantity ≠ .attitude ∨ n.assembler.acceleration = n'.assembler.acceleration →
      (n.offer env m).outputs = (n'.offer env m).outputs) := by
  unfold Offer.unaccelerated
  cases ha : (n.arbiter.accept m.kind).accepted with
  | false =>
    have ha' : (n'.arbiter.accept m.kind).accepted = false := by rw [← h.arbiter, ha]
    rw [offer_refused ha, offer_refused ha']
    exact ⟨rfl, fun _ => rfl⟩
  | true =>
    have ha' : (n'.arbiter.accept m.kind).accepted = true := by rw [← h.arbiter, ha]
    cases hr : Reading.ofMessage m env.ardupilot with
    | error f =>
      rw [offer_unread ha hr, offer_unread ha' hr]
      exact ⟨rfl, fun _ => rfl⟩
    | ok r =>
      rw [offer_read ha hr, offer_read ha' hr]
      cases r with
      | attitude r =>
        -- the only records that show what is remembered
        obtain ⟨hu, heq⟩ := Assembler.attitude_congr h.labels env r
        exact ⟨hu, fun hd => heq (hd.resolve_left (not_not.2 (Message.quantity_of_attitude hr)))⟩
      | sensors r =>
        have hs : (n.assembler.sensors env r).outputs = (n'.assembler.sensors env r).outputs := by
          rw [Assembler.sensors_outputs h.steady he, Assembler.sensors_outputs h.steady' he, h.labels]
          simp only [Assembler.sensorOutputs_congr h.labels]
        exact ⟨congrArg (Except.map (List.map Output.unaccelerated)) hs, fun _ => hs⟩

theorem imprint? (h : n.Resembles n') (hc : c.FloatClock) : n.imprint? c = n'.imprint? c := by
  cases c with
  | connectionChanged connected => rfl
  | handle env m =>
    have hu := (h.offer hc m).1
    have hok : (n.offer env m).outputs.isOk = (n'.offer env m).outputs.isOk := by
      unfold Offer.unaccelerated at hu
      cases ho : (n.offer env m).outputs <;> cases ho' : (n'.offer env m).outputs <;>
        rw [ho, ho'] at hu <;> first | rfl | cases hu
    simp only [Node.imprint?, h.arbiter, hok]

theorem run (h : n.Resembles n') {calls : List Call} (hc : ∀ call ∈ calls, call.FloatClock) :
    (n.run calls).Resembles (n'.run calls) ∧ n.imprints calls = n'.imprints calls := by
  induction calls generalizing n n' with
  | nil => exact ⟨h, rfl⟩
  | cons c calls ih =>
    have hfirst : c.FloatClock := hc c List.mem_cons_self
    obtain ⟨hr, hi⟩ := ih (h.after hfirst) fun call hm => hc call (List.mem_cons_of_mem c hm)
    rw [imprints, imprints, h.imprint? hfirst, hi]
    exact ⟨hr, rfl⟩

theorem acceleration_eq (h : n.Resembles n') {calls : List Call} (hc : ∀ call ∈ calls, call.FloatClock)
    (hi : n.imprints calls ≠ []) :
    (n.run calls).assembler.acceleration = (n'.run calls).assembler.acceleration := by
  have hf := (imprints_run h.steady hc).2
  have hf' := (imprints_run h.steady' hc).2
  -- both runs have the same last imprint, and it alone decides
  rw [← (h.run hc).2] at hf'
  rw [List.getLast?_eq_some_getLast hi] at hf hf'
  exact hf.unique hf'

end Resembles
end Node

namespace Sink
variable {σ : Type} {sink : Sink σ} {Q : σ → σ → Prop}

/-- Whether two states of a sink that stand in a relation still do after records that differ in no more than
their accelerations, and fail at the same records. -/
def InStep (sink : Sink σ) (Q : σ → σ → Prop) : Prop :=
  ∀ s s' o o', Q s s' → Output.unaccelerated o = Output.unaccelerated o' →
    (sink.publish o s).fault = (sink.publish o' s').fault ∧
      Q (sink.publish o s).state (sink.publish o' s').state

theorem Quiet.inStep (h : sink.Quiet) : sink.InStep fun _ _ => True :=
  fun s s' o o' _ _ => ⟨by rw [h o s, h o' s'], trivial⟩

theorem InStep.publishAll (h : sink.InStep Q) {outputs outputs' : List Output}
    (ho : outputs.map Output.unaccelerated = outputs'.map Output.unaccelerated) {s s' : σ} (hq : Q s s') :
    (sink.publishAll outputs s).fault = (sink.publishAll outputs' s').fault ∧
      Q (sink.publishAll outputs s).state (sink.publishAll outputs' s').state := by
  unfold Sink.publishAll
  induction outputs generalizing outputs' s s' with
  | nil =>
    obtain rfl : outputs' = [] := List.map_eq_nil_iff.1 ho.symm
    exact ⟨rfl, hq⟩
  | cons o rest ih =>
    obtain ⟨o', rest', rfl, ho', hrest⟩ := List.map_eq_cons_iff.1 ho.symm
    obtain ⟨hf, hq'⟩ := h s s' o o' hq ho'.symm
    cases hp : (sink.publish o s).fault with
    | some f =>
      rw [hp] at hf
      simp only [Reaction.untilFault, hp, ← hf]
      exact ⟨trivial, hq'⟩
    | none =>
      rw [hp] at hf
      simp only [Reaction.untilFault, hp, ← hf]
      exact ih hrest.symm hq'

end Sink

theorem Node.handle_inStep {σ : Type} {sink : Sink σ} {Q : σ → σ → Prop} (h : sink.InStep Q) {n n' : Node}
    {env : Ambient} {m : Message} (ho : (n.offer env m).unaccelerated = (n'.offer env m).unaccelerated)
    {s s' : σ} (hq : Q s s') :
    (n.handle sink s env m).result = (n'.handle sink s' env m).result ∧
      Q (n.handle sink s env m).sink (n'.handle sink s' env m).sink := by
  unfold Offer.unaccelerated at ho
  cases hn : (n.offer env m).outputs with
  | error f =>
    cases hn' : (n'.offer env m).outputs with
    | ok outputs' => rw [hn, hn'] at ho; cases ho
    | error f' =>
      rw [hn, hn'] at ho
      cases ho
      rw [handle_result_of_error sink s hn, handle_result_of_error sink s' hn',
        handle_sink_of_error sink s hn, handle_sink_of_error sink s' hn']
      exact ⟨rfl, hq⟩
  | ok outputs =>
    cases hn' : (n'.offer env m).outputs with
    | error f' => rw [hn, hn'] at ho; cases ho
    | ok outputs' =>
      rw [hn, hn'] at ho
      have hmap := Except.ok.inj ho
      obtain ⟨hf, hq'⟩ := h.publishAll hmap hq
      have hlen : outputs.length = outputs'.length := by simpa using congrArg List.length hmap
      simp only [handle, hn, hn', hf, hlen]
      exact ⟨trivial, hq'⟩

namespace Station
variable {σ : Type} {sink : Sink σ} {Q : σ → σ → Prop}

theorem run_inStep (h : sink.InStep Q) {t t' : Station σ} (hr : t.node.Resembles t'.node)
    (hq : Q t.sink t'.sink) {calls : List Node.Call} (hc : ∀ call ∈ calls, call.FloatClock) :
    Q (t.run sink calls).sink (t'.run sink calls).sink := by
  induction calls generalizing t t' with
  | nil => exact hq
  | cons c calls ih =>
    have hfirst : c.FloatClock := hc c List.mem_cons_self
    have hnext : (t.call sink c).node.Resembles (t'.call sink c).node := by
      rw [call_node, call_node]
      exact hr.after hfirst
    have hsink : Q (t.call sink c).sink (t'.call sink c).sink := by
      cases c with
      | handle env m => exact (Node.handle_inStep h (hr.offer hfirst m).1 hq).2
      | connectionChanged connected => exact hq
    exact ih hnext hsink fun call hm => hc call (List.mem_cons_of_mem c hm)

theorem reconnected_resembles (sink : Sink σ) (s : σ) {c : ImuConfig} {n : Node} (hn : Node.ofConfig c = .ok n)
    {past : List Node.Call} (hp : ∀ call ∈ past, call.FloatClock) (connected : Bool) :
    ((Station.run sink ⟨n, s⟩ past).call sink (.connectionChanged connected)).node.Resembles n := by
  have hw := Node.run_steady hn hp
  have hw' := Node.steady_of_ofConfig hn
  obtain ⟨labels, -, rfl⟩ := Node.ofConfig_eq_ok.1 hn
  rw [call_node, run_node]
  exact ⟨rfl, Node.run_labels _ past, hw, hw'⟩

/-- After a change of the connection a node and a new one of the same configuration take the same calls. Their
arbiters agree, and on any further message they offer the same records or fail alike. Only an attitude that
comes before the first imprint can differ, and only in its accelerations. What the calls return is the same
for any sink that does not look at accelerations. -/
theorem reconnected_like_new (sink : Sink σ) (s s' : σ) {c : ImuConfig} {n : Node}
    (hn : Node.ofConfig c = .ok n) {past calls : List Node.Call}
    (hp : ∀ call ∈ past, call.FloatClock) (hc : ∀ call ∈ calls, call.FloatClock) (connected : Bool) :
    let before := Station.run sink ⟨n, s⟩ past
    let old := (before.call sink (.connectionChanged connected)).run sink calls
    let new := Station.run sink ⟨n, s'⟩ calls
    old.node.arbiter = new.node.arbiter ∧
    (∀ env m, env.FloatClock →
      (old.node.offer env m).unaccelerated = (new.node.offer env m).unaccelerated ∧
      (m.kind.quantity ≠ .attitude ∨ n.imprints calls ≠ [] →
        (old.node.offer env m).outputs = (new.node.offer env m).outputs)) ∧
    ∀ Q : σ → σ → Prop, sink.InStep Q → Q before.sink s' → Q old.sink new.sink ∧
      ∀ env m, env.FloatClock →
        (old.node.handle sink old.sink env m).result = (new.node.handle sink new.sink env m).result := by
  intro before old new
  have hr := reconnected_resembles sink s hn hp connected
  obtain ⟨hrun, -⟩ := hr.run hc
  have hold : old.node = (before.call sink (.connectionChanged connected)).node.run calls :=
    run_node sink _ calls
  have hnew : new.node = n.run calls := run_node sink _ calls
  rw [← hold, ← hnew] at hrun
  refine ⟨hrun.arbiter, fun env m he => ⟨(hrun.offer he m).1, fun hd => ?_⟩, fun Q hs hq => ?_⟩
  · refine (hrun.offer he m).2 (hd.imp_right fun hi => ?_)
    rw [hold, hnew]
    rw [← (hr.run hc).2] at hi
    exact hr.acceleration_eq hc hi
  · have hq' : Q old.sink new.sink := run_inStep hs hr hq hc
    exact ⟨hq', fun env m he => (Node.handle_inStep hs (hrun.offer he m).1 hq').1⟩

/-- An acceleration that was known before the connection was lost is all that a new node lacks. -/
theorem reconnected_like_new_scaled :
    let c : ImuConfig := ⟨"base_link", 0, 0, 0, 0, {}⟩
    let n : Node :=
      { assembler := { labels := ⟨"base_link", {}, .unknown, .unknown, .unknown, .unknown⟩ } }
    let zero : Vec3 Num := ⟨.int 0, .int 0, .int 0⟩
    let scaled : Message := .scaledImu ⟨.int 0, ⟨.int 0, .int 0, .int (-1000)⟩, zero, zero⟩
    let raw : Message := .rawImu ⟨.int 5, zero, zero, zero⟩
    let attitude : Message := .attitude ⟨.int 9, .real 0, .real 0, .real 0, zero⟩
    let before := Station.run Sink.recording ⟨n, []⟩ [.handle {} scaled]
    let old := (before.call Sink.recording (.connectionChanged true)).run Sink.recording [.handle {} raw]
    let new := Station.run Sink.recording ⟨n, []⟩ [.handle {} raw]
    (Node.ofConfig c = .ok n ∧ (∀ call ∈ [Node.Call.handle {} scaled], call.FloatClock) ∧
      (∀ call ∈ [Node.Call.handle {} raw], call.FloatClock)) ∧
    (old.node.offer {} attitude).outputs = (new.node.offer {} attitude).outputs ∧
    (old.node.handle Sink.recording old.sink {} attitude).result =
      (new.node.handle Sink.recording new.sink {} attitude).result := by
  intro c n zero scaled raw attitude before old new
  have hn : Node.ofConfig c = .ok n := Node.ofConfig_zero "base_link" {}
  have hp : ∀ call ∈ [Node.Call.handle {} scaled], call.FloatClock := by
    simpa [Node.Call.FloatClock] using ⟨0, rfl⟩
  have hc : ∀ call ∈ [Node.Call.handle {} raw], call.FloatClock := by
    simpa [Node.Call.FloatClock] using ⟨0, rfl⟩
  have hi : n.imprints [.handle {} raw] ≠ [] := by decide +kernel
  have hquiet : Sink.recording.Quiet := fun _ _ => rfl
  have he : ({} : Ambient).FloatClock := ⟨0, rfl⟩
  obtain ⟨-, ho, hs⟩ := reconnected_like_new Sink.recording [] [] hn hp hc true
  exact ⟨⟨hn, hp, hc⟩, (ho {} attitude he).2 (.inr hi), (hs _ hquiet.inStep trivial).2 {} attitude he⟩

end Station
end InertialRelay
