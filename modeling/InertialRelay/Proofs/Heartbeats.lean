import InertialRelay.Link
import InertialRelay.Proofs.Readings

/-!
# The history of a link

A link that meets no fault is determined by the heartbeats it accepted: the first of them names the
system it is locked to, the last one gives the firmware and the time that counts for the timeout.
`Watch` is that history, with what the link has to tell at each call read off from it, and
`Link.Tracks.outcome` says that the link tells just this.
-/

namespace InertialRelay

namespace Link

/-- What an owner asks of its link. -/
inductive Call (τ : Type) where
  | receive (now : τ) (m : WireMessage)
  | check (now : τ)

variable {τ : Type}

/-- The reading of the clock during a call. -/
def Call.now : Call τ → τ
  | receive now _ | check now => now

def outcome [Timescale τ] (l : Link τ) : Call τ → Outcome τ
  | .receive now m => l.receive now m
  | .check now => l.checkTimeout now

end Link

/-- An accepted heartbeat. -/
structure Beat (τ : Type) where
  time : τ
  system : Int
  autopilot : Int

/-- The accepted heartbeats, the latest one first, and whether the vehicle counts as connected. -/
structure Watch (τ : Type) where
  beats : List (Beat τ) := []
  connected : Bool := false

namespace Watch
variable {τ : Type}

/-- The system whose heartbeat was accepted first. -/
def target (w : Watch τ) : Option Int := w.beats.getLast?.map (·.system)

def admits (w : Watch τ) (system : Int) : Bool := w.target.all (system == ·)

/-- Whether the latest heartbeat comes from firmware of the ArduPilot family. -/
def ardupilot (w : Watch τ) : Bool := w.beats.head?.any (·.autopilot == 3)

/-- The heartbeat that is accepted in a call: one of a vehicle, from an admitted system. -/
def beat? (w : Watch τ) : Link.Call τ → Option (Beat τ)
  | .receive now m =>
    match m.type == "HEARTBEAT" && w.admits m.system, Link.code m "autopilot" with
    | true, .ok autopilot => if autopilot = 8 then none else some ⟨now, m.system, autopilot⟩
    | _, _ => none
  | .check _ => none

/-- Whether at reading `now` the latest heartbeat is longer ago than the timeout. -/
def overdue [Timescale τ] (timeout : τ) (w : Watch τ) (now : τ) : Bool :=
  w.beats.head?.any fun beat => match Timescale.between beat.time now with
    | .ok elapsed => Timescale.less timeout elapsed
    | .error _ => false

/-- What is to be told at a call. -/
def notice? [Timescale τ] (timeout : τ) (w : Watch τ) (c : Link.Call τ) : Option Notice :=
  match c with
  | .receive _ m =>
    if (w.beat? c).isSome then if w.connected then none else some (.connection true)
    else if w.admits m.system then m.decode.1.map .message
    else none
  | .check now => if w.connected && w.overdue timeout now then some (.connection false) else none

/-- The history after a call. -/
def next [Timescale τ] (timeout : τ) (w : Watch τ) (c : Link.Call τ) : Watch τ where
  beats := (w.beat? c).toList ++ w.beats
  connected := match w.notice? timeout c with
    | some (.connection connected) => connected
    | _ => w.connected

theorem target_cons {w : Watch τ} (beat : Beat τ) (h : w.admits beat.system = true) (connected : Bool) :
    ({ beats := beat :: w.beats, connected } : Watch τ).target = some beat.system := by
  cases hb : w.beats.getLast? with
  | none => simp_all [target]
  | some first => simp_all [target, admits, List.getLast?_cons]

theorem beat?_eq_none {w : Watch τ} {now : τ} {m : WireMessage}
    (h : m.type ≠ "HEARTBEAT" ∨ w.admits m.system = false ∨ Link.code m "autopilot" = .ok 8) :
    w.beat? (.receive now m) = none := by
  simp only [beat?]
  split
  next autopilot ht hc =>
    simp only [Bool.and_eq_true, beq_iff_eq] at ht
    rcases h with h | h | h
    · exact absurd ht.1 h
    · exact absurd ht.2 (by simp [h])
    · rw [hc] at h
      rw [if_pos (Except.ok.inj h)]
  next => rfl

theorem beat?_eq_some {w : Watch τ} {m : WireMessage} {autopilot : Int} (now : τ)
    (ht : m.type = "HEARTBEAT") (ha : w.admits m.system = true)
    (hc : Link.code m "autopilot" = .ok autopilot) (h8 : autopilot ≠ 8) :
    w.beat? (.receive now m) = some ⟨now, m.system, autopilot⟩ := by
  simp [beat?, ht, ha, hc, h8]

section
variable [Timescale τ] {w : Watch τ} {now : τ} {m : WireMessage} (timeout : τ)

theorem notice?_receive (h : w.beat? (.receive now m) = none) :
    w.notice? timeout (.receive now m) =
      if w.admits m.system then m.decode.1.map .message else none := by
  simp [notice?, h]

/-- A message that is no accepted heartbeat does not change the history. -/
theorem next_receive (h : w.beat? (.receive now m) = none) :
    w.next timeout (.receive now m) = w := by
  rw [next, notice?_receive timeout h, h]
  cases w.admits m.system <;> cases m.decode.1 <;> rfl

theorem next_of_message {c : Link.Call τ} {m : Message}
    (h : w.notice? timeout c = some (.message m)) : w.next timeout c = w := by
  cases c with
  | check now =>
    simp only [notice?] at h
    split at h <;> simp at h
  | receive now m =>
    cases hb : w.beat? (.receive now m) with
    | none => exact next_receive timeout hb
    | some beat =>
      simp only [notice?, hb, Option.isSome_some, if_true] at h
      split at h <;> simp at h

theorem connected_of_beat {c : Link.Call τ} {beat : Beat τ} (h : w.beat? c = some beat) :
    (w.next timeout c).connected = true := by
  cases c with
  | check now => cases h
  | receive now m => cases hc : w.connected <;> simp [next, notice?, h, hc]

theorem next_check (w : Watch τ) (now : τ) :
    w.next timeout (.check now) = { w with connected := w.connected && !w.overdue timeout now } := by
  rw [next]
  cases hc : w.connected <;> cases ho : w.overdue timeout now <;> simp [beat?, notice?, hc, ho]

end

end Watch

theorem WireMessage.decode_of_not_kind {m : WireMessage} (h : Kind.ofName? m.type = none) :
    m.decode = (none, []) := by
  simp [decode, h]

namespace Link
variable {τ : Type} {l : Link τ} {w : Watch τ}

/-- A link and its history agree. -/
structure Tracks (l : Link τ) (w : Watch τ) : Prop where
  target : l.target = w.target
  autopilot : l.autopilot = w.beats.head?.map (·.autopilot)
  lastHeartbeat : l.lastHeartbeat = w.beats.head?.map (·.time)
  connected : l.connected = w.connected

/-- Whether at reading `now` the last heartbeat is longer ago than the timeout. -/
def Late [Timescale τ] (l : Link τ) (now : τ) : Prop :=
  ∃ last, l.lastHeartbeat = some last ∧
    ∃ elapsed, Timescale.between last now = .ok elapsed ∧ Timescale.less l.timeout elapsed = true

theorem Tracks.new (timeout : τ) : ({ timeout } : Link τ).Tracks {} := ⟨rfl, rfl, rfl, rfl⟩

theorem Tracks.admits (h : l.Tracks w) (system : Int) : l.admits system = w.admits system := by
  rw [Link.admits, Watch.admits, h.target]
  cases w.target <;> rfl

theorem Tracks.isArdupilot (h : l.Tracks w) : l.isArdupilot = w.ardupilot := by
  rw [Link.isArdupilot, Watch.ardupilot, h.autopilot]
  cases w.beats.head? <;> rfl

/-- An outcome without a fault tells what the history says, and its link agrees with the history that
goes on. -/
def Outcome.Accords [Timescale τ] (o : Outcome τ) (timeout : τ) (w : Watch τ) (c : Call τ) : Prop :=
  ∀ notice, o.notice = .ok notice →
    notice = w.notice? timeout c ∧ o.link.Tracks (w.next timeout c)

variable [Timescale τ]

theorem Tracks.beat (h : l.Tracks w) {now : τ} {m : WireMessage} {autopilot : Int}
    (hb : w.beat? (.receive now m) = some ⟨now, m.system, autopilot⟩)
    (ha : w.admits m.system = true) (vehicleType : Int) :
    (l.beat now m.system autopilot vehicleType).Accords l.timeout w (.receive now m) := by
  intro notice hn
  -- an admitted system is the target already, so the first heartbeat still names it
  have ht := Watch.target_cons ⟨now, m.system, autopilot⟩ ha
  have hw : w.notice? l.timeout (.receive now m) =
      if w.connected then none else some (.connection true) := by
    simp [Watch.notice?, hb]
  rw [Watch.next, hw, hb]
  simp only [Link.beat, h.connected] at hn ⊢
  cases hc : w.connected <;> rw [hc] at hn <;>
    exact ⟨(Except.ok.inj hn).symm, (ht _).symm, rfl, rfl, rfl⟩

theorem Tracks.heartbeat (h : l.Tracks w) {now : τ} {m : WireMessage} (ht : m.type = "HEARTBEAT") :
    (l.heartbeat now m).Accords l.timeout w (.receive now m) := by
  intro notice hn
  have hd : m.decode.1 = none := by rw [WireMessage.decode_of_not_kind (by rw [ht]; rfl)]
  unfold Link.heartbeat at hn ⊢
  cases hc : code m "autopilot" with
  | error f => simp [hc] at hn
  | ok autopilot =>
    simp only [hc] at hn ⊢
    have hq : (autopilot = invalidAutopilot || !l.admits m.system) = true ↔
        autopilot = 8 ∨ w.admits m.system = false := by
      rw [h.admits, Bool.or_eq_true, decide_eq_true_eq, Bool.not_eq_true']
      exact Iff.rfl
    by_cases hr : autopilot = 8 ∨ w.admits m.system = false
    · rw [if_pos (hq.2 hr)] at hn ⊢
      have hb : w.beat? (.receive now m) = none := by
        rcases hr with rfl | ha
        · exact Watch.beat?_eq_none (.inr (.inr hc))
        · exact Watch.beat?_eq_none (.inr (.inl ha))
      rw [Watch.notice?_receive _ hb, Watch.next_receive _ hb, hd]
      simp only [Except.ok.injEq] at hn
      exact ⟨by simp [← hn], h⟩
    · rw [if_neg (mt hq.1 hr)] at hn ⊢
      simp only [not_or, Bool.not_eq_false] at hr
      have hb := Watch.beat?_eq_some now ht hr.2 hc hr.1
      cases hv : code m "type" with
      | error f => simp [hv] at hn
      | ok vehicleType =>
        simp only [hv] at hn ⊢
        exact h.beat hb hr.2 vehicleType notice hn

theorem Tracks.receive (h : l.Tracks w) (now : τ) (m : WireMessage) :
    (l.receive now m).Accords l.timeout w (.receive now m) := by
  by_cases ht : m.type = "HEARTBEAT"
  · have hr : l.receive now m = l.heartbeat now m := by simp [Link.receive, ht]
    rw [hr]
    exact h.heartbeat ht
  · intro notice hn
    have hb : w.beat? (.receive now m) = none := Watch.beat?_eq_none (.inl ht)
    rw [Watch.notice?_receive _ hb, Watch.next_receive _ hb]
    unfold Link.receive at hn ⊢
    rw [h.admits] at hn ⊢
    by_cases hbad : m.type = "BAD_DATA"
    · have hd : m.decode.1 = none := by rw [WireMessage.decode_of_not_kind (by rw [hbad]; rfl)]
      rw [if_pos hbad] at hn ⊢
      exact ⟨by simp [hd, ← Except.ok.inj hn], h⟩
    · rw [if_neg hbad, if_neg ht] at hn ⊢
      cases ha : w.admits m.system <;> rw [ha] at hn <;> exact ⟨(Except.ok.inj hn).symm, h⟩

theorem checkTimeout_cases (l : Link τ) (now : τ) :
    (l.connected = true ∧ l.Late now ∧ l.checkTimeout now = l.lose) ∨
    (¬ (l.connected = true ∧ l.Late now) ∧ l.checkTimeout now = { link := l }) ∨
    ∃ f, l.checkTimeout now = { link := l, notice := .error f } := by
  cases hc : l.connected with
  | false => exact .inr (.inl ⟨by simp, by simp [Link.checkTimeout, hc]⟩)
  | true =>
    cases hl : l.lastHeartbeat with
    | none => exact .inr (.inl ⟨by simp [Late, hl], by simp [Link.checkTimeout, hl]⟩)
    | some last =>
      cases he : Timescale.between last now with
      | error f => exact .inr (.inr ⟨f, by simp [Link.checkTimeout, hc, hl, he]⟩)
      | ok elapsed =>
        by_cases ht : Timescale.less l.timeout elapsed = true
        · exact .inl ⟨rfl, ⟨last, hl, elapsed, he, ht⟩, by simp [Link.checkTimeout, hc, hl, he, ht]⟩
        · exact .inr (.inl ⟨by simp [Late, hl, he, ht], by simp [Link.checkTimeout, hc, hl, he, ht]⟩)

theorem Tracks.overdue (h : l.Tracks w) {now : τ} :
    w.overdue l.timeout now = true ↔ l.Late now := by
  rw [Watch.overdue, Late, h.lastHeartbeat]
  cases w.beats.head? with
  | none => simp
  | some beat => cases he : Timescale.between beat.time now <;> simp [he]

theorem Tracks.checkTimeout (h : l.Tracks w) (now : τ) :
    (l.checkTimeout now).Accords l.timeout w (.check now) := by
  intro notice hn
  rw [Watch.next_check]
  rcases l.checkTimeout_cases now with ⟨hc, hl, he⟩ | ⟨hq, he⟩ | ⟨f, he⟩
  · rw [he] at hn ⊢
    have ho := h.overdue.2 hl
    rw [h.connected] at hc
    refine ⟨?_, h.target, h.autopilot, h.lastHeartbeat, by simp [lose, hc, ho]⟩
    simp [Watch.notice?, hc, ho, ← Except.ok.inj hn]
  · rw [he] at hn ⊢
    rw [← h.overdue, h.connected, ← Bool.and_eq_true, Bool.not_eq_true] at hq
    refine ⟨?_, h.target, h.autopilot, h.lastHeartbeat, ?_⟩
    · simp [Watch.notice?, hq, ← Except.ok.inj hn]
    · rw [h.connected]
      revert hq
      cases w.connected <;> cases w.overdue l.timeout now <;> simp
  · rw [he] at hn
    cases hn

/-- A link that meets no fault tells what its history says, and goes on to agree with it. -/
theorem Tracks.outcome (h : l.Tracks w) (c : Call τ) : (l.outcome c).Accords l.timeout w c := by
  cases c with
  | receive now m => exact h.receive now m
  | check now => exact h.checkTimeout now

theorem outcome_timeout (l : Link τ) (c : Call τ) :
    (l.outcome c).link.timeout = l.timeout := by
  cases c with
  | receive now m =>
    simp only [outcome, Link.receive, heartbeat, beat]
    repeat' split
    all_goals rfl
  | check now =>
    simp only [outcome, checkTimeout, lose]
    repeat' split
    all_goals rfl

end Link
end InertialRelay
