import InertialRelay.Proofs.AttitudeViews
import InertialRelay.Proofs.Reconnection
import InertialRelay.Proofs.SharedStamps

/-!
# Asking for the last attitude

`Station.last_attitude_recorded`: the attitude that a node remembers is at any time the last one in the recording, in
each of its views, if these have topics of their own. The node remembers a pair before the sink sees it, so the two
agree because a message that fails leaves neither of them changed, and because no other record goes to the two topics
(`Node.offer_cases`).
-/

namespace InertialRelay

namespace Topics

/-- The topics of all records but the views of an attitude. -/
def others (t : Topics) : List String := [t.dataRaw, t.mag, t.atmPressure, t.temperature]

/-- Each view of an attitude has a topic of its own. The other topics need not differ from each other. -/
structure ViewsApart (t : Topics) : Prop where
  views : t.data ≠ t.dataNed
  data : t.data ∉ t.others
  dataNed : t.dataNed ∉ t.others

end Topics

namespace Recording
variable {α : Type} {s outputs : List (Published α)} {topic : String}

theorem last?_append (s outputs : List (Published α)) (topic : String) :
    last? (s ++ outputs) topic = (last? outputs topic).or (last? s topic) := by
  simp only [last?, List.reverse_append, List.find?_append, Option.map_or]

theorem last?_eq_none (h : ∀ o ∈ outputs, o.topic ≠ topic) : last? outputs topic = none := by
  simpa [last?] using h

theorem last?_append_of_ne (h : ∀ o ∈ outputs, o.topic ≠ topic) : last? (s ++ outputs) topic = last? s topic := by
  rw [last?_append, last?_eq_none h, Option.none_or]

end Recording

theorem Sink.recording_publishAll (outputs s : List Output) :
    (recording.publishAll outputs s).state = s ++ outputs := by
  unfold publishAll
  induction outputs generalizing s with
  | nil => simp [Reaction.untilFault]
  | cons o rest ih =>
    have h := ih (s ++ [o])
    rw [List.append_assoc, List.singleton_append] at h
    exact h

namespace AttitudePair
variable {topics : Topics} {s : List Output}

theorem last?_data (h : topics.ViewsApart) (pair : AttitudePair) :
    Recording.last? (s ++ pair.outputs topics) topics.data = some (.imu pair.enu) := by
  have hne : (topics.dataNed == topics.data) = false := beq_false_of_ne h.views.symm
  simp [Recording.last?, outputs, hne]

theorem last?_dataNed (pair : AttitudePair) :
    Recording.last? (s ++ pair.outputs topics) topics.dataNed = some (.imu pair.ned) := by
  simp [Recording.last?, outputs]

end AttitudePair

theorem Assembler.topic_of_mem_sensorOutputs {a : Assembler} {header : Header} {r : SensorReading} {o : Output}
    (h : o ∈ a.sensorOutputs header r) : o.topic ∈ a.labels.topics.others := by
  simp only [sensorOutputs, List.mem_append, Option.mem_toList, Option.map_eq_some_iff] at h
  rcases h with ((⟨_, -, rfl⟩ | ⟨_, -, rfl⟩) | ⟨_, -, rfl⟩) | ⟨_, -, rfl⟩ <;> simp [Topics.others]

namespace Node

/-- Whether a call hands over an attitude that is accepted and processed. -/
def takesAttitude (n : Node) : Call → Bool
  | .handle env m =>
    decide (m.kind.quantity = .attitude) && (n.arbiter.accept m.kind).accepted && (n.offer env m).outputs.isOk
  | .connectionChanged _ => false

/-- A message either is an attitude that is taken, remembered and offered in its two views, or it leaves the last
attitude as it was and offers records on the other topics alone. -/
theorem offer_cases (n : Node) (env : Ambient) (m : Message) :
    (∃ pair : AttitudePair, n.takesAttitude (.handle env m) = true ∧
      (n.offer env m).node.assembler.lastAttitude = some pair ∧
      (n.offer env m).outputs = .ok (pair.outputs n.assembler.labels.topics)) ∨
    n.takesAttitude (.handle env m) = false ∧
      (n.offer env m).node.assembler.lastAttitude = n.assembler.lastAttitude ∧
      ∀ outputs, (n.offer env m).outputs = .ok outputs →
        ∀ o ∈ outputs, o.topic ∈ n.assembler.labels.topics.others := by
  cases ha : (n.arbiter.accept m.kind).accepted with
  | false =>
    right
    simp [takesAttitude, ha, offer_refused ha]
  | true =>
    cases hr : Reading.ofMessage m env.ardupilot with
    | error f =>
      right
      simp [takesAttitude, offer_unread ha hr, Except.isOk, Except.toBool]
    | ok r =>
      simp only [takesAttitude, ha, offer_read ha hr, Bool.and_true]
      cases r with
      | attitude r =>
        have hm := Message.quantity_of_attitude hr
        cases hp : n.assembler.attitudePair env r with
        | error f => right; simp [Assembler.assemble, Assembler.attitude, hp, Except.isOk, Except.toBool]
        | ok pair =>
          left
          refine ⟨pair, ?_⟩
          simp [Assembler.assemble, Assembler.attitude, hp, hm, AttitudePair.outputs, Except.isOk, Except.toBool]
      | sensors r =>
        right
        have hm : m.kind.quantity ≠ .attitude := by
          intro hm
          obtain ⟨s, hs⟩ := Message.attitude_of_reading hm hr
          cases hs
        obtain ⟨acceleration, warning, hframe⟩ := n.assembler.sensors_frame env r
        refine ⟨by simp [hm], by rw [Assembler.assemble, hframe], fun outputs ho o hmem => ?_⟩
        obtain ⟨header, -, rfl⟩ := Assembler.sensors_outputs_eq_ok ho
        exact Assembler.topic_of_mem_sensorOutputs hmem

end Node

namespace Station
variable {s : Station (List Output)}

/-- What a call on a node with a recording does to the last attitude and to the recording. -/
theorem call_cases (s : Station (List Output)) (call : Node.Call) :
    (∃ pair : AttitudePair, s.node.takesAttitude call = true ∧
      (s.call .recording call).node.assembler.lastAttitude = some pair ∧
      (s.call .recording call).sink = s.sink ++ pair.outputs s.node.assembler.labels.topics) ∨
    s.node.takesAttitude call = false ∧
      (s.call .recording call).node.assembler.lastAttitude = s.node.assembler.lastAttitude ∧
      ∃ outputs, (s.call .recording call).sink = s.sink ++ outputs ∧
        ∀ o ∈ outputs, o.topic ∈ s.node.assembler.labels.topics.others := by
  cases call with
  | connectionChanged connected => exact .inr ⟨rfl, rfl, [], (List.append_nil _).symm, nofun⟩
  | handle env m =>
    have hnode : (s.call .recording (.handle env m)).node = (s.node.offer env m).node := call_node _ _ _
    rw [hnode]
    have hsink {outputs : List Output} (ho : (s.node.offer env m).outputs = .ok outputs) :
        (s.call .recording (.handle env m)).sink = s.sink ++ outputs := by
      rw [call, Node.handle_sink_of_ok .recording s.sink ho, Sink.recording_publishAll]
    rcases s.node.offer_cases env m with ⟨pair, ht, hlast, ho⟩ | ⟨ht, hlast, hothers⟩
    · exact .inl ⟨pair, ht, hlast, hsink ho⟩
    · refine .inr ⟨ht, hlast, ?_⟩
      cases ho : (s.node.offer env m).outputs with
      | error f => exact ⟨[], (Node.handle_sink_of_error .recording s.sink ho).trans (List.append_nil _).symm, nofun⟩
      | ok outputs => exact ⟨outputs, hsink ho, hothers outputs ho⟩

/-- A host that asks for the last attitude gets what is last on the topics of the views. -/
structure Recorded (s : Station (List Output)) : Prop where
  enu : s.node.assembler.lastAttitude.map (fun pair => .imu pair.enu) =
    Recording.last? s.sink s.node.assembler.labels.topics.data
  ned : s.node.assembler.lastAttitude.map (fun pair => .imu pair.ned) =
    Recording.last? s.sink s.node.assembler.labels.topics.dataNed

/-- A call that takes no attitude changes neither the last attitude nor what is last on the topics of the views. -/
theorem call_unchanged (ht : s.node.assembler.labels.topics.ViewsApart) {call : Node.Call}
    (hc : s.node.takesAttitude call = false) :
    (s.call .recording call).node.assembler.lastAttitude = s.node.assembler.lastAttitude ∧
    Recording.last? (s.call .recording call).sink s.node.assembler.labels.topics.data =
      Recording.last? s.sink s.node.assembler.labels.topics.data ∧
    Recording.last? (s.call .recording call).sink s.node.assembler.labels.topics.dataNed =
      Recording.last? s.sink s.node.assembler.labels.topics.dataNed := by
  rcases s.call_cases call with ⟨pair, htakes, -⟩ | ⟨-, hlast, outputs, hsink, hothers⟩
  · simp [hc] at htakes
  · rw [hsink]
    exact ⟨hlast, Recording.last?_append_of_ne fun o ho h => ht.data (h ▸ hothers o ho),
      Recording.last?_append_of_ne fun o ho h => ht.dataNed (h ▸ hothers o ho)⟩

theorem call_labels (s : Station (List Output)) (call : Node.Call) :
    (s.call .recording call).node.assembler.labels = s.node.assembler.labels := by
  rw [call_node]
  exact s.node.run_labels [call]

theorem Recorded.call (h : s.Recorded) (ht : s.node.assembler.labels.topics.ViewsApart) (call : Node.Call) :
    (s.call .recording call).Recorded := by
  cases hc : s.node.takesAttitude call with
  | false =>
    obtain ⟨hlast, hdata, hned⟩ := call_unchanged ht hc
    refine ⟨?_, ?_⟩
    · rw [call_labels, hlast, hdata, h.enu]
    · rw [call_labels, hlast, hned, h.ned]
  | true =>
    rcases s.call_cases call with ⟨pair, -, hlast, hsink⟩ | ⟨htakes, -⟩
    · refine ⟨?_, ?_⟩
      · rw [call_labels, hlast, hsink, pair.last?_data ht, Option.map_some]
      · rw [call_labels, hlast, hsink, pair.last?_dataNed, Option.map_some]
    · simp [hc] at htakes

theorem run_cons (s : Station (List Output)) (call : Node.Call) (calls : List Node.Call) :
    s.run .recording (call :: calls) = (s.call .recording call).run .recording calls := rfl

theorem Recorded.run (h : s.Recorded) (ht : s.node.assembler.labels.topics.ViewsApart) (calls : List Node.Call) :
    (s.run .recording calls).Recorded := by
  induction calls generalizing s with
  | nil => exact h
  | cons call calls ih => exact ih (h.call ht call) (by rwa [call_labels])

/-- A node remembers an attitude once it has taken one, and not before. -/
theorem lastAttitude_run_eq_none (s : Station (List Output)) (calls : List Node.Call) :
    (s.run .recording calls).node.assembler.lastAttitude = none ↔ s.node.assembler.lastAttitude = none ∧
      ∀ before call after, calls = before ++ call :: after → (s.node.run before).takesAttitude call = false := by
  induction calls generalizing s with
  | nil => simp [run]
  | cons call calls ih =>
    -- a call of the run is the first one, or one of the run that begins after it
    have hsplit : (∀ before c after, call :: calls = before ++ c :: after →
        (s.node.run before).takesAttitude c = false) ↔ s.node.takesAttitude call = false ∧
          ∀ before c after, calls = before ++ c :: after →
            ((s.node.after call).run before).takesAttitude c = false := by
      constructor
      · exact fun h => ⟨h [] call calls rfl, fun before c after he => h (call :: before) c after (by rw [he]; rfl)⟩
      · rintro ⟨hcall, hrest⟩ (_ | ⟨b, before⟩) c after he
        · cases he
          exact hcall
        · cases he
          exact hrest before c after rfl
    rw [run_cons, ih, call_node, hsplit, ← and_assoc, ← call_node .recording]
    refine and_congr_left fun _ => ?_
    rcases s.call_cases call with ⟨pair, htakes, hlast, -⟩ | ⟨htakes, hlast, -⟩
    · simp [htakes, hlast]
    · simp [htakes, hlast]

/-- After any calls on a new node with an empty recording, what the host is told of the last attitude is what is last
in the recording on the topic of each view. There is none exactly as long as no attitude was accepted and processed,
and a call that processes none leaves the answers as they are. -/
theorem last_attitude_recorded {c : ImuConfig} {n : Node} (hn : Node.ofConfig c = .ok n)
    (ht : c.topics.ViewsApart) (calls : List Node.Call) :
    let t := Station.run .recording ⟨n, []⟩ calls
    let last := t.node.assembler.lastAttitude
    last.map (fun pair => Record.imu pair.enu) = Recording.last? t.sink c.topics.data ∧
    last.map (fun pair => Record.imu pair.ned) = Recording.last? t.sink c.topics.dataNed ∧
    (last = none ↔ ∀ before call after, calls = before ++ call :: after →
      (n.run before).takesAttitude call = false) ∧
    ∀ call, t.node.takesAttitude call = false →
      let t' := t.call .recording call
      t'.node.assembler.lastAttitude = last ∧
      Recording.last? t'.sink c.topics.data = Recording.last? t.sink c.topics.data ∧
      Recording.last? t'.sink c.topics.dataNed = Recording.last? t.sink c.topics.dataNed := by
  intro t last
  obtain ⟨labels, hl, rfl⟩ := Node.ofConfig_eq_ok.1 hn
  have htopics : t.node.assembler.labels.topics = c.topics := by
    rw [run_node, Node.run_labels]
    exact (Labels.topics_of_ofConfig hl).2
  have hnew : (⟨{ assembler := { labels } }, []⟩ : Station (List Output)).Recorded := ⟨rfl, rfl⟩
  have hrec : t.Recorded := hnew.run (by rwa [(Labels.topics_of_ofConfig hl).2]) calls
  refine ⟨?_, ?_, ?_, fun call hc => ?_⟩
  · rw [← htopics]
    exact hrec.enu
  · rw [← htopics]
    exact hrec.ned
  · exact (lastAttitude_run_eq_none _ calls).trans (and_iff_right rfl)
  · have hu := call_unchanged (s := t) (by rwa [htopics]) hc
    rwa [htopics] at hu

theorem last_attitude_recorded_reconnected :
    let c : ImuConfig := ⟨"base_link", 0, 0, 0, 0, {}⟩
    let n : Node := { assembler := { labels := ⟨"base_link", {}, .unknown, .unknown, .unknown, .unknown⟩ } }
    let zero : Vec3 Num := ⟨.int 0, .int 0, .int 0⟩
    let attitude : Node.Call := .handle {} (.attitudeQuaternion ⟨.int 5, ⟨.int 1, .int 0, .int 0, .int 0⟩, zero⟩)
    let calls := [attitude, .connectionChanged false,
      .handle {} (.scaledImu ⟨.int 0, ⟨.int 0, .int 0, .int (-1000)⟩, zero, zero⟩)]
    let t := Station.run .recording ⟨n, []⟩ calls
    Node.ofConfig c = .ok n ∧ c.topics.ViewsApart ∧ t.node.assembler.lastAttitude ≠ none ∧
      t.node.assembler.lastAttitude.map (fun pair => Record.imu pair.enu) = Recording.last? t.sink c.topics.data := by
  intro c n zero attitude calls t
  have hn : Node.ofConfig c = .ok n := Node.ofConfig_zero "base_link" {}
  have ht : c.topics.ViewsApart := ⟨by decide, by decide, by decide⟩
  obtain ⟨henu, -, hnone, -⟩ := last_attitude_recorded hn ht calls
  have htaken : (n.run []).takesAttitude attitude = true := by decide +kernel
  simp only [t]
  refine ⟨hn, ht, fun h => ?_, henu⟩
  have hnot : (n.run []).takesAttitude attitude = false := hnone.1 h [] attitude calls.tail rfl
  exact absurd (hnot.symm.trans htaken) Bool.false_ne_true

end Station
end InertialRelay
