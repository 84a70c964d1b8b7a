import InertialRelay.Bridge
import InertialRelay.Proofs.NodeCalls
import InertialRelay.Proofs.Roster

/-!
# A bridge is its node

`Bridge.run_refines`: what a bridge does to its node and its sink is what the same node does on its
own under the calls that the history of the link gives rise to. One call on the bridge is at most
one call on the node (`Bridge.Follows.call`).
-/

namespace InertialRelay

/-- The call on a node that passes a notice on. -/
def Node.Call.ofNotice (env : Ambient) : Notice → Node.Call
  | .message m => .handle env m
  | .connection connected => .connectionChanged connected

namespace Station
variable {σ : Type} {sink : Sink σ} {manual : Option String} {offset : Option Num} {wall : Nat → Num}
  {now : Num}

theorem run_append (sink : Sink σ) (s : Station σ) (calls calls' : List Node.Call) :
    s.run sink (calls ++ calls') = (s.run sink calls).run sink calls' := List.foldl_append

/-- A notice reaches the node with the firmware that the link knows once it has noticed. -/
theorem relay_state (o : Link.Outcome Num) (s : Station σ) {notice : Option Notice}
    (hn : o.notice = .ok notice) :
    ((audience sink manual offset wall).relay now o s).state = s.run sink (notice.map
      (.ofNotice { offset, wall, mono := now, ardupilot := o.link.isArdupilot })).toList := by
  simp only [Audience.relay, hn]
  rcases notice with - | m | connected <;> rfl

end Station

namespace Bridge
variable {σ : Type}

/-- A call on the receiver of a bridge, with the host clock during it. -/
structure Call where
  wall : Nat → Num
  call : Link.Call Num

/-- A bridge after a call. -/
def call (sink : Sink σ) (b : Bridge σ) (c : Call) : Outcome σ :=
  match c.call with
  | .receive now m => b.process sink c.wall now m
  | .check now => b.checkTimeout sink c.wall now

/-- A bridge after calls, unless one of them raises a fault. -/
def run (sink : Sink σ) (b : Bridge σ) : List Call → Except Fault (Bridge σ)
  | [] => .ok b
  | c :: calls =>
    match (b.call sink c).fault with
    | some f => .error f
    | none => (b.call sink c).bridge.run sink calls

/-- The call on its node that a call on a bridge comes to. -/
def nodeCall? (c : LinkConfig) (w : Watch Num) (call : Call) : Option Node.Call :=
  (w.notice? (.real c.connTimeout) call.call).map (.ofNotice
    { offset := c.timeOffset.map .real
      wall := call.wall
      mono := call.call.now
      ardupilot := w.ardupilot })

/-- The calls on its node that calls on a bridge come to. -/
def nodeCalls (c : LinkConfig) : Watch Num → List Call → List Node.Call
  | _, [] => []
  | w, call :: calls =>
    (nodeCall? c w call).toList ++ nodeCalls c (w.next (.real c.connTimeout) call.call) calls

theorem call_eq (sink : Sink σ) (b : Bridge σ) (c : Call) :
    b.call sink c = b.after ((b.audience sink c.wall).call c.call b.receiver.link b.station) := by
  rcases c with ⟨wall, now | now⟩ <;> rfl

/-- A bridge of a configuration whose link agrees with a history. -/
structure Follows (c : LinkConfig) (w : Watch Num) (b : Bridge σ) : Prop where
  tracks : b.receiver.link.Tracks w
  timeout : b.receiver.link.timeout = .real c.connTimeout
  offset : b.offset = c.timeOffset.map .real

variable {sink : Sink σ} {c : LinkConfig} {w : Watch Num} {b : Bridge σ}

theorem nodeCall?_eq (c : LinkConfig) (w : Watch Num) (x : Call) :
    nodeCall? c w x = (w.notice? (.real c.connTimeout) x.call).map (.ofNotice
      { offset := c.timeOffset.map .real
        wall := x.wall
        mono := x.call.now
        ardupilot := (w.next (.real c.connTimeout) x.call).ardupilot }) := by
  rw [nodeCall?]
  cases hn : w.notice? (.real c.connTimeout) x.call with
  | none => rfl
  | some notice =>
    cases notice with
    | connection connected => rfl
    -- the firmware changes with heartbeats only, and these are no messages to the node
    | message m => rw [Watch.next_of_message _ hn]

theorem Follows.step (h : b.Follows c w) {x : Call} (hf : (b.call sink x).fault = none) :
    (b.call sink x).bridge.Follows c (w.next (.real c.connTimeout) x.call) ∧
    (b.call sink x).bridge.station = b.station.run sink (nodeCall? c w x).toList := by
  rw [call_eq] at hf ⊢
  obtain ⟨notice, hn⟩ := Audience.relay_notice hf
  obtain ⟨hw, ht⟩ := h.tracks.outcome _ notice hn
  rw [h.timeout] at hw ht
  refine ⟨⟨?_, ?_, h.offset⟩, ?_⟩
  · simp only [after, Audience.call, Audience.relay_link]
    exact ht
  · simp only [after, Audience.call, Audience.relay_link, Link.outcome_timeout]
    exact h.timeout
  · simp only [after, audience, Audience.call]
    rw [Station.relay_state _ _ hn, nodeCall?_eq, hw, h.offset, ht.isArdupilot]

theorem Follows.run (h : b.Follows c w) {calls : List Call} {b' : Bridge σ}
    (hr : b.run sink calls = .ok b') :
    b'.station = b.station.run sink (nodeCalls c w calls) := by
  induction calls generalizing b w with
  | nil =>
    cases hr
    rfl
  | cons x calls ih =>
    rw [Bridge.run] at hr
    split at hr
    next => cases hr
    next hf =>
      obtain ⟨hw, hs⟩ := h.step hf
      rw [ih hw hr, hs, nodeCalls, Station.run_append]

theorem ofConfig_eq_ok {c : BridgeConfig} {s : σ} {manual : Option String} {b : Bridge σ}
    (h : ofConfig c s manual = .ok b) :
    ∃ n, Node.ofConfig c.imu = .ok n ∧ b.station = ⟨n, s⟩ ∧ b.Follows c.link {} := by
  simp only [ofConfig, bind_eq_ok, pure_eq_ok] at h
  obtain ⟨n, hn, rfl⟩ := h
  exact ⟨n, hn, rfl, .new _, rfl, rfl⟩

/-- A bridge that was put together for a configuration and takes calls without a fault: its node and
its sink are those of a new node alone that is told of each change of the connection and handed each
message that the history of the link lets through, whatever the node and the sink do with it. -/
theorem run_refines (sink : Sink σ) {c : BridgeConfig} {s : σ} {manual : Option String} {b b' : Bridge σ}
    {calls : List Call} (hb : ofConfig c s manual = .ok b) (hr : b.run sink calls = .ok b') :
    ∃ n, Node.ofConfig c.imu = .ok n ∧
      b'.station = Station.run sink ⟨n, s⟩ (nodeCalls c.link {} calls) := by
  obtain ⟨n, hn, hs, hf⟩ := ofConfig_eq_ok hb
  exact ⟨n, hn, by rw [hf.run hr, hs]⟩

/-- A connection, a message of the sensors in it, and its loss. -/
theorem run_refines_lost :
    let c : BridgeConfig := { imu := ⟨"base_link", 0, 0, 0, 0, {}⟩ }
    let beat : WireMessage := ⟨"HEARTBEAT", 1, [("autopilot", .int 3), ("type", .int 2)]⟩
    let zero : Vec3 Num := ⟨.int 0, .int 0, .int 0⟩
    let m : Message := .rawImu ⟨.int 7, ⟨.int 0, .int 0, .int (-1000)⟩, zero, zero⟩
    let raw : WireMessage := ⟨"RAW_IMU", 1, m.fields⟩
    let wall : Nat → Num := fun _ => .int 0
    let calls : List Call :=
      [⟨wall, .receive (.int 0) beat⟩, ⟨wall, .receive (.int 1) raw⟩, ⟨wall, .check (.int 20)⟩]
    ∃ b b' : Bridge (List Output), ofConfig c [] = .ok b ∧ b.run .recording calls = .ok b' ∧
      ∃ n, Node.ofConfig c.imu = .ok n ∧ b'.station = Station.run .recording ⟨n, []⟩
        [.connectionChanged true, .handle { wall, mono := .int 1, ardupilot := true } m,
          .connectionChanged false] := by
  intro c beat zero m raw wall calls
  obtain ⟨b, hb⟩ : ∃ b, ofConfig c ([] : List Output) = .ok b := by
    simp [ofConfig, c, Node.ofConfig_zero, bind, Except.bind, pure, Except.pure]
  obtain ⟨b', hr⟩ : ∃ b', b.run .recording calls = .ok b' := by
    simp only [ofConfig, c, Node.ofConfig_zero, bind, Except.bind, pure, Except.pure, Except.ok.injEq] at hb
    subst hb
    exact ⟨_, rfl⟩
  have hn : nodeCalls c.link {} calls = [.connectionChanged true,
      .handle { wall, mono := .int 1, ardupilot := true } m, .connectionChanged false] := by
    let w : Watch Num := ⟨[⟨.int 0, 1, 3⟩], true⟩
    have hbeat : ({} : Watch Num).beat? (.receive (.int 0) beat) = some ⟨.int 0, 1, 3⟩ := by rfl
    have hconnected : nodeCall? c.link {} ⟨wall, .receive (.int 0) beat⟩ = some (.connectionChanged true) ∧
        Watch.next (.real c.link.connTimeout) {} (.receive (.int 0) beat) = w := by
      simp [nodeCall?, Watch.next, Watch.notice?, hbeat, Node.Call.ofNotice, w]
    have hraw : w.beat? (.receive (.int 1) raw) = none := Watch.beat?_eq_none (.inl (by decide))
    have hread : nodeCall? c.link w ⟨wall, .receive (.int 1) raw⟩ =
        some (.handle { wall, mono := .int 1, ardupilot := true } m) := by
      rw [nodeCall?, Watch.notice?_receive _ hraw]
      rfl
    have hlost : nodeCall? c.link w ⟨wall, .check (.int 20)⟩ = some (.connectionChanged false) := by
      have hlate : w.overdue (Num.real 10.0) (.int 20) = true := by decide +kernel
      simp [nodeCall?, Watch.notice?, hlate, Node.Call.ofNotice, c, w]
    simp only [nodeCalls, calls, hconnected, hread, Watch.next_receive _ hraw, hlost]
    rfl
  have hs := run_refines .recording hb hr
  rw [hn] at hs
  exact ⟨b, b', hb, hr, hs⟩

end Bridge
end InertialRelay
