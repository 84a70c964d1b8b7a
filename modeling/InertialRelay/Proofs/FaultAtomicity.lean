import InertialRelay.Proofs.AccelerationMemory

/-!
# Calls that fail

`Node.run_handle_atomic`: a call that fails before it publishes has changed the arbiter and nothing else.
The assembler has one check after its first write, the clock of the warnings
(`Assembler.assemble_of_fault`), and that one cannot fail while the clock reads floats.
-/

namespace InertialRelay

namespace Assembler
variable {a : Assembler} {env : Ambient} {f : Fault}

theorem distrust_of_fault (h : a.distrust env = .error f) : a.warning.ready env.mono = .error f := by
  unfold distrust at h
  cases hr : a.warning.ready env.mono with
  | ok answer => rw [hr] at h; cases h
  | error g => rw [hr, bind_error] at h; cases h; rfl

theorem attitude_of_fault {r : AttitudeReading} (h : (a.attitude env r).outputs = .error f) :
    a.attitude env r = ⟨a, [], .error f⟩ := by
  unfold attitude at h ⊢
  cases hp : a.attitudePair env r with
  | ok pair => rw [hp] at h; cases h
  | error g => rw [hp] at h; cases h; rfl

theorem sensors_of_fault {r : SensorReading} (h : (a.sensors env r).outputs = .error f) :
    a.sensors env r = ⟨a, [], .error f⟩ ∨ a.warning.ready env.mono = .error f := by
  unfold sensors at h ⊢
  cases hh : Header.atDeviceTime env.offset (env.wall 0) a.labels.frameId (.real r.deviceTime) with
  | error g =>
    rw [hh] at h
    cases h
    exact .inl rfl
  | ok header =>
    -- from here on the acceleration is written, and only an untrusted one is followed by a check
    simp only [hh] at h
    split at h
    · split at h
      next g hd =>
        cases h
        rw [← remember_warning a r.inertial]
        exact .inr (distrust_of_fault hd)
      · cases h
    · cases h

/-- A reading that fails leaves no trace, or it is the clock of the warnings that failed. -/
theorem assemble_of_fault {r : Reading} (h : (a.assemble env r).outputs = .error f) :
    a.assemble env r = ⟨a, [], .error f⟩ ∨ a.warning.ready env.mono = .error f := by
  cases r with
  | attitude r => exact .inl (attitude_of_fault h)
  | sensors r => exact sensors_of_fault h

end Assembler

namespace Node
variable {n : Node} {env : Ambient} {m : Message} {f : Fault}

theorem offer_of_fault (hw : n.assembler.warning.Steady) (hc : env.FloatClock)
    (hf : (n.offer env m).outputs = .error f) :
    n.offer env m = ⟨{ n with arbiter := (n.arbiter.accept m.kind).arbiter },
      (n.arbiter.accept m.kind).log, .error f⟩ := by
  cases ha : (n.arbiter.accept m.kind).accepted with
  | false => rw [offer_refused ha] at hf; cases hf
  | true =>
    cases hr : Reading.ofMessage m env.ardupilot with
    | error g =>
      rw [offer_unread ha hr] at hf ⊢
      cases hf
      rfl
    | ok r =>
      rw [offer_read ha hr] at hf ⊢
      rcases Assembler.assemble_of_fault hf with he | hready
      · rw [he, List.append_nil]
      · obtain ⟨due, warning, hok, -⟩ := hw.ready hc
        rw [hok] at hready
        cases hready

/-- After any calls on a new node, whatever its sink does: a call that fails before it publishes was
accepted by the arbiter. The arbiter is as its verdict leaves it, and everything else is as it was before
the call: what the assembler remembers, its last attitude, its throttle, and the sink. -/
theorem run_handle_atomic {σ : Type} (sink : Sink σ) (s : σ) {c : ImuConfig} (hn : ofConfig c = .ok n)
    {calls : List Call} (hc : ∀ call ∈ calls, call.FloatClock) (he : env.FloatClock)
    (hf : ((Station.run sink ⟨n, s⟩ calls).node.offer env m).outputs = .error f) :
    let t := Station.run sink ⟨n, s⟩ calls
    let v := t.node.arbiter.accept m.kind
    v.accepted = true ∧
      t.node.handle sink t.sink env m = ⟨{ t.node with arbiter := v.arbiter }, t.sink, v.log, .error f⟩ := by
  intro t v
  have hnode : t.node = n.run calls := Station.run_node sink _ calls
  have hw : t.node.assembler.warning.Steady := by
    rw [hnode]
    exact run_steady hn hc
  refine ⟨?_, ?_⟩
  · by_contra ha
    rw [offer_refused (Bool.eq_false_iff.2 ha)] at hf
    cases hf
  · unfold handle
    rw [offer_of_fault hw he hf]

/-- The flags of a high resolution message are no number. The arbiter has moved on to its source, and the
acceleration of the message before is still remembered. -/
theorem run_handle_atomic_flags :
    let c : ImuConfig := ⟨"base_link", 0, 0, 0, 0, {}⟩
    let n : Node :=
      { assembler := { labels := ⟨"base_link", {}, .unknown, .unknown, .unknown, .unknown⟩ } }
    let zero : Vec3 Num := ⟨.int 0, .int 0, .int 0⟩
    let before : Message := .scaledImu ⟨.int 0, ⟨.int 0, .int 0, .int (-1000)⟩, zero, zero⟩
    let nan : Num := .real (.ofBits 0x7ff8000000000000)
    let m : Message := .highresImu ⟨.int 5, zero, zero, zero, .int 0, .int 0, .int 0, .int 0, nan⟩
    let t := Station.run Sink.recording ⟨n, []⟩ [.handle {} before]
    (ofConfig c = .ok n ∧ (∀ call ∈ [Call.handle {} before], call.FloatClock) ∧
      ({} : Ambient).FloatClock ∧ (t.node.offer {} m).outputs = .error .nanToInt) ∧
      t.node.handle Sink.recording t.sink {} m =
        ⟨{ t.node with arbiter := (t.node.arbiter.accept m.kind).arbiter }, t.sink,
          (t.node.arbiter.accept m.kind).log, .error .nanToInt⟩ := by
  intro c n zero before nan m t
  have hn : ofConfig c = .ok n := ofConfig_zero "base_link" {}
  have hc : ∀ call ∈ [Call.handle {} before], call.FloatClock := by
    simpa [Call.FloatClock] using ⟨0, rfl⟩
  have he : ({} : Ambient).FloatClock := ⟨0, rfl⟩
  have hf : (t.node.offer {} m).outputs = .error .nanToInt := by decide +kernel
  exact ⟨⟨hn, hc, he, hf⟩, (run_handle_atomic Sink.recording [] hn hc he hf).2⟩

end Node
end InertialRelay
