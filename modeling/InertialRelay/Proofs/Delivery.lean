import InertialRelay.Proofs.ConnectionEvents
import InertialRelay.Proofs.Filtering

/-!
# What a loop hands out

`ReadLoop.delivered_once`: a loop gives each message that gets past its link to every handler, once and in
order, up to where it is stopped, and nothing else. A handler that fails might as well have written a warning
and returned (`Roster.guarded`). What one call hands out is put together over calls and turns by
`Roster.Serves`.
-/

namespace InertialRelay

namespace Cycle
variable {τ : Type}

def message? (c : Cycle τ) : Option WireMessage :=
  match c.received with
  | .message w => some w
  | .nothing | .failed _ => none

theorem calls_of_stopped {c : Cycle τ} (hs : c.stopped = true) : c.calls = [] := by
  rcases hr : c.received with - | text | w <;> simp [calls, hs, hr]

end Cycle

namespace ReadLoop
variable {τ σ : Type}

/-- The messages that are received before the loop is stopped. -/
def received (script : List (Cycle τ)) : List WireMessage :=
  (script.takeWhile fun c => !c.stopped).filterMap Cycle.message?

theorem received_of_stopped {c : Cycle τ} (hs : c.stopped = true) (script : List (Cycle τ)) :
    received (c :: script) = [] := by
  simp [received, hs]

theorem received_cons {c : Cycle τ} (hs : c.stopped = false) (script : List (Cycle τ)) :
    received (c :: script) = c.calls.flatMap Link.Call.received ++ received script := by
  rcases hr : c.received with - | text | w <;>
    simp [received, hs, Cycle.calls, Cycle.message?, hr, Link.Call.received]

end ReadLoop

def Heard.given? : Heard → Option (Nat × Message)
  | .message handler m => some (handler, m)
  | .connection .. => none

/-- Which messages were given to handlers, with the handler's place in the roster. -/
def given (heard : List Heard) : List (Nat × Message) := heard.filterMap Heard.given?

namespace Roster
variable {τ σ : Type} {R : Roster τ σ}

/-- Each message given to every handler, in the order of subscription. -/
def rounds (R : Roster τ σ) (ms : List Message) : List (Nat × Message) :=
  ms.flatMap fun m => (List.range R.handlers.length).map (·, m)

theorem given_hears (R : Roster τ σ) (notice : Notice) :
    given (R.hears notice) = R.rounds notice.message?.toList := by
  cases notice with
  | connection connected => simp [given, hears, rounds, Notice.message?, Heard.given?]
  | message m =>
    have hgiven : given (R.hears (.message m)) = R.handlers.zipIdx.map fun p => (p.2, m) := by
      simp [given, hears, Heard.given?, Function.comp_def]
    have hplaces : List.range R.handlers.length = R.handlers.zipIdx.map (·.2) := by
      rw [List.zipIdx_map_snd, List.range_eq_range']
    rw [hgiven, rounds, Notice.message?, Option.toList_some, List.flatMap_singleton, hplaces, List.map_map]
    rfl

theorem rounds_append (R : Roster τ σ) (ms ms' : List Message) :
    R.rounds (ms ++ ms') = R.rounds ms ++ R.rounds ms' := List.flatMap_append

/-- From a link and a record, an outcome without a fault after messages were received: what gets past the
link among them was given to every handler, and nothing else. Heartbeats were at readings with `P`. -/
structure Serves (R : Roster τ σ) (P : τ → Prop) (l : Link τ) (heard : List Heard) (ws : List WireMessage)
    (r : Linked τ (σ × List Heard)) : Prop where
  fault : r.fault = none
  target : r.link.target = ws.foldl WireMessage.lock l.target
  clock : ∀ t ∈ r.link.lastHeartbeat, P t
  handed : ∃ ms, Passed l.target ws ms ∧ given r.state.2 = given heard ++ R.rounds ms

section
variable {P : τ → Prop} {l : Link τ} {heard : List Heard} {ws ws' : List WireMessage}
  {r r' : Linked τ (σ × List Heard)}

theorem Serves.of_agree (h : R.Serves P l heard ws r) (ha : r'.Agree r) : R.Serves P l heard ws r' :=
  ⟨ha.fault ▸ h.fault, ha.link ▸ h.target, ha.link ▸ h.clock, ha.state ▸ h.handed⟩

theorem Serves.nil (R : Roster τ σ) (hl : ∀ t ∈ l.lastHeartbeat, P t) (s : σ) :
    R.Serves P l heard [] ⟨l, (s, heard), [], none⟩ :=
  ⟨rfl, rfl, hl, [], .nil _, by simp [rounds]⟩

theorem Serves.trans (h : R.Serves P l heard ws r) (h' : R.Serves P r.link r.state.2 ws' r') :
    R.Serves P l heard (ws ++ ws') r' := by
  obtain ⟨ms, hp, hg⟩ := h.handed
  obtain ⟨ms', hp', hg'⟩ := h'.handed
  rw [h.target] at hp'
  refine ⟨h'.fault, ?_, h'.clock, ms ++ ms', hp.append hp', ?_⟩
  · rw [h'.target, h.target, List.foldl_append]
  · rw [hg', hg, rounds_append, List.append_assoc]

variable [Timescale τ] (hq : R.Quiet)
  (hP : ∀ earlier later, P earlier → P later → ∃ elapsed, Timescale.between earlier later = .ok elapsed)
include hq hP

theorem Serves.call (hl : ∀ t ∈ l.lastHeartbeat, P t) {c : Link.Call τ} (hw : c.WellFormed) (hc : P c.now)
    (s : σ) : R.Serves P l heard c.received (R.recorded.audience.call c l (s, heard)) := by
  have hf := Link.outcome_filters hw fun t ht => hP t c.now (hl t ht) hc
  obtain ⟨notice, hn, hp⟩ := hf.passed
  have hlink : (R.recorded.audience.call c l (s, heard)).link = (l.outcome c).link :=
    Audience.relay_link _ _ _
  have hfault : (R.audience.call c l s).fault = none := by
    simp only [Audience.call, Audience.relay, hn]
    cases notice with
    | none => rfl
    | some notice => exact hq.tell _ _ notice s
  refine ⟨?_, hlink ▸ hf.target, ?_, _, hp, ?_⟩
  · obtain ⟨heard', he, -⟩ := R.recorded_call c l s heard
    rw [he]
    exact hfault
  · intro t ht
    rw [hlink] at ht
    rcases hf.clock t ht with rfl | ht
    · exact hc
    · exact hl t ht
  -- listeners hear of the connection, which is no message
  · rw [hq.heard, hn, given, List.filterMap_append]
    cases notice with
    | none => simp [rounds, given]
    | some notice => exact congrArg _ (given_hears R notice)

theorem Serves.calls (hl : ∀ t ∈ l.lastHeartbeat, P t) {calls : List (Link.Call τ)}
    (hc : ∀ c ∈ calls, c.WellFormed ∧ P c.now) (s : σ) :
    R.Serves P l heard (calls.flatMap Link.Call.received) (R.recorded.audience.run calls l (s, heard)) := by
  induction calls generalizing l heard s with
  | nil => exact .nil R hl s
  | cons c calls ih =>
    obtain ⟨hw, hnow⟩ := hc c List.mem_cons_self
    have hcall : R.Serves P l heard c.received (R.recorded.audience.call c l (s, heard)) :=
      .call hq hP hl hw hnow s
    have hlater : ∀ d ∈ calls, d.WellFormed ∧ P d.now := fun d hd => hc d (List.mem_cons_of_mem c hd)
    exact (hcall.trans (ih hcall.clock hlater _)).of_agree (Audience.run_cons_of_ok calls hcall.fault)

theorem Serves.loop (hl : ∀ t ∈ l.lastHeartbeat, P t) {script : List (Cycle τ)}
    (hc : ∀ call ∈ script.flatMap Cycle.calls, call.WellFormed ∧ P call.now) (s : σ) :
    R.Serves P l heard (ReadLoop.received script) (ReadLoop.run R.recorded.audience script l (s, heard)) := by
  -- the messages after a stop are not received, so it is the turns up to there that count
  induction script generalizing l heard s with
  | nil => exact .nil R hl s
  | cons c script ih =>
    rw [List.flatMap_cons, List.forall_mem_append] at hc
    have hturn : R.Serves P l heard (c.calls.flatMap Link.Call.received)
        (ReadLoop.turn R.recorded.audience c l (s, heard)) :=
      (Serves.calls hq hP hl hc.1 s).of_agree (ReadLoop.turn_agree _ c l (s, heard))
    cases hs : c.stopped with
    | true =>
      rw [Cycle.calls_of_stopped hs] at hturn
      rw [ReadLoop.received_of_stopped hs, ReadLoop.run, hs]
      exact hturn
    | false =>
      rw [ReadLoop.received_cons hs, ReadLoop.run, hs, hturn.fault]
      exact (hturn.trans (ih hturn.clock hc.2 _)).of_agree ⟨rfl, rfl, rfl⟩

end

end Roster

/-- The handler that catches its own fault, writes a warning about it and returns. -/
def Subscriber.guarded {τ σ : Type} (f : Subscriber τ σ Message) : Subscriber τ σ Message := fun l now m s =>
  let r := f l now m s
  let warning := match r.fault with
    | none => []
    | some f => [⟨.warning, .link, "IMU handler failed on " ++ m.kind.name ++ ": " ++ f.message⟩]
  { state := r.state, log := r.log ++ warning }

def Roster.guarded {τ σ : Type} (R : Roster τ σ) : Roster τ σ where
  handlers := R.handlers.map Subscriber.guarded
  listeners := R.listeners

theorem Roster.tell_guarded {τ σ : Type} (R : Roster τ σ) (l : Link τ) (now : τ) (notice : Notice) (s : σ) :
    (R.guarded.audience l now).tell notice s = (R.audience l now).tell notice s := by
  cases notice with
  | connection connected => rfl
  | message m =>
    show Subscribers.deliver m ((R.handlers.map Subscriber.guarded).map fun f => f l now) s =
      Subscribers.deliver m (R.handlers.map fun f => f l now) s
    induction R.handlers generalizing s with
    | nil => rfl
    | cons f handlers ih =>
      simp only [List.map_cons, Subscribers.deliver, ih]
      cases hf : (f l now m s).fault <;> simp [Subscriber.guarded, Subscribers.complaint, hf]

namespace ReadLoop
variable {τ σ : Type} [Timescale τ]

/-- The readings of the clock that are compared in a loop. -/
def readings (l : Link τ) (script : List (Cycle τ)) : List τ :=
  l.lastHeartbeat.toList ++ (script.flatMap Cycle.calls).map Link.Call.now

/-- A script has messages, failures and silence in any order, and the loop may be stopped while it waits for
any of them. Listeners do not fail, every heartbeat carries its fields, and the time between readings of the
clock can be told, as it always can between binary64 values. Then the loop meets no fault, and there is just
one list of messages that get past the link before the stop. Each of them was given to every handler in turn,
and nothing else was given to anyone. A handler may fail on whatever it likes: link, states and log are the
same as if it had caught the fault, written one warning and returned. -/
theorem delivered_once (R : Roster τ σ) (hq : R.Quiet) {script : List (Cycle τ)} {l : Link τ}
    (hw : ∀ call ∈ script.flatMap Cycle.calls, call.WellFormed)
    (hclock : ∀ earlier ∈ readings l script, ∀ later ∈ readings l script,
      ∃ elapsed, Timescale.between earlier later = .ok elapsed) (s : σ) :
    let r := run R.audience script l s
    let heard := (run R.recorded.audience script l (s, [])).state.2
    run R.recorded.audience script l (s, []) = r.beside heard ∧
    r.fault = none ∧ r.link.target = (received script).foldl WireMessage.lock l.target ∧
    (∃ ms, (∀ ms', Passed l.target (received script) ms' ↔ ms' = ms) ∧ given heard = R.rounds ms) ∧
    r = run R.guarded.audience script l s := by
  intro r heard
  have hl : ∀ t ∈ l.lastHeartbeat, t ∈ readings l script := by
    intro t ht
    simp only [readings, List.mem_append, Option.mem_toList]
    exact .inl ht
  have hc : ∀ call ∈ script.flatMap Cycle.calls, call.WellFormed ∧ call.now ∈ readings l script :=
    fun call hm => ⟨hw call hm, List.mem_append_right _ (List.mem_map_of_mem hm)⟩
  have hs : R.Serves (· ∈ readings l script) l [] (received script)
      (run R.recorded.audience script l (s, [])) :=
    .loop hq (fun earlier later he hl => hclock earlier he later hl) hl hc s
  obtain ⟨heard', he⟩ := run_recorded R script l s []
  have hbeside : run R.recorded.audience script l (s, []) = r.beside heard := by
    simp only [heard, he]
    rfl
  obtain ⟨ms, hp, hg⟩ := hs.handed
  refine ⟨hbeside, ?_, ?_, ⟨ms, fun ms' => ⟨fun hp' => hp'.det hp, ?_⟩, hg⟩, ?_⟩
  · have hf := hs.fault
    rw [hbeside] at hf
    exact hf
  · have ht := hs.target
    rw [hbeside] at ht
    exact ht
  · rintro rfl
    exact hp
  · exact (run_congr R.tell_guarded script l s).symm

/-- The first of two handlers fails on everything. The link locks on system 1 between two messages of
system 7, and the loop is stopped while it waits for the message before the last one. -/
theorem delivered_once_stopped :
    let R : Roster Num Unit :=
      ⟨[fun _ _ _ s => { state := s, fault := some (.subscriber "sink down") },
          fun _ _ _ s => { state := s }],
        [fun _ _ _ s => { state := s }]⟩
    let beat : WireMessage := ⟨"HEARTBEAT", 1, [("autopilot", .int 3), ("type", .int 2)]⟩
    let pressure (system time : Int) : WireMessage :=
      ⟨"SCALED_PRESSURE", system, [("time_boot_ms", .int time), ("press_abs", .int 1000),
        ("press_diff", .int 0), ("temperature", .int 20)]⟩
    let script : List (Cycle Num) :=
      [⟨.message (pressure 7 1), false, .real 0, .real 0⟩, ⟨.failed "socket", false, .real 0, .real 0⟩,
        ⟨.message beat, false, .real 1, .real 1⟩, ⟨.message (pressure 7 2), false, .real 2, .real 2⟩,
        ⟨.message ⟨"SCALED_PRESSURE", 1, []⟩, false, .real 2, .real 2⟩, ⟨.nothing, false, .real 3, .real 3⟩,
        ⟨.message (pressure 1 3), false, .real 3, .real 3⟩, ⟨.message (pressure 1 4), true, .real 4, .real 4⟩,
        ⟨.message (pressure 1 5), false, .real 4, .real 4⟩]
    let l : Link Num := { timeout := .real 10 }
    let r := run R.audience script l ()
    let heard := (run R.recorded.audience script l ((), [])).state.2
    let typed (time : Int) : Message := .scaledPressure ⟨.int time, .int 1000, .int 0, .int 20⟩
    R.Quiet ∧ (∀ call ∈ script.flatMap Cycle.calls, call.WellFormed) ∧
      (∀ earlier ∈ readings l script, ∀ later ∈ readings l script,
        ∃ elapsed, Timescale.between earlier later = .ok elapsed) ∧
      given heard = [(0, typed 1), (1, typed 1), (0, typed 3), (1, typed 3)] ∧
      r.fault = none ∧ (∃ ms, Passed none (received script) ms ∧ given heard = R.rounds ms) ∧
      r = run R.guarded.audience script l () ∧
      (r.log.filter (·.severity = .warning)).map (·.component) = [.link, .decoder, .link] := by
  intro R beat pressure script l r heard typed
  have hq : R.Quiet := by
    intro f hf l now connected s
    obtain rfl := List.mem_singleton.1 hf
    rfl
  have hbeat : (Link.Call.receive (Num.real 1) beat).WellFormed := fun _ => ⟨⟨3, rfl⟩, 2, rfl⟩
  have hw : ∀ call ∈ script.flatMap Cycle.calls, call.WellFormed := by
    simpa [script, Cycle.calls, pressure, Link.Call.WellFormed] using hbeat
  have hreal : ∀ t ∈ readings l script, ∃ x, t = .real x := by
    simp [readings, l, script, Cycle.calls, Link.Call.now]
  have hclock : ∀ earlier ∈ readings l script, ∀ later ∈ readings l script,
      ∃ elapsed, Timescale.between earlier later = .ok elapsed := by
    intro earlier he later hl
    obtain ⟨x, rfl⟩ := hreal earlier he
    obtain ⟨y, rfl⟩ := hreal later hl
    exact ⟨.real (y - x), rfl⟩
  obtain ⟨-, hf, -, ⟨ms, hp, hg⟩, hguarded⟩ := delivered_once R hq hw hclock ()
  exact ⟨hq, hw, hclock, by decide +kernel, hf, ⟨ms, (hp ms).2 rfl, hg⟩, hguarded, by decide +kernel⟩

end ReadLoop
end InertialRelay
