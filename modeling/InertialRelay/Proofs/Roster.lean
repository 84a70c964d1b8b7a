import InertialRelay.Proofs.Heartbeats
import InertialRelay.Subscribers

/-!
# Subscribers that stay

A `Roster` holds handlers and listeners for good. `Roster.recorded` is the same roster keeping a
record of what each of them is told. The record is a mere witness: links, states, logs and faults are
what they are without it (`Roster.recorded_call`), and a call without a fault tells everyone what the
link noticed.
-/

namespace InertialRelay

/-- Someone being told something, by the place in the roster. -/
inductive Heard where
  | message (handler : Nat) (m : Message)
  | connection (listener : Nat) (connected : Bool)
  deriving DecidableEq

/-- A reaction beside a record. -/
def Reaction.beside {σ ρ : Type} (r : Reaction σ) (record : ρ) : Reaction (σ × ρ) where
  state := (r.state, record)
  log := r.log
  fault := r.fault

/-- A link and its subscribers beside a record. -/
def Linked.beside {τ σ ρ : Type} (r : Linked τ σ) (record : ρ) : Linked τ (σ × ρ) where
  link := r.link
  state := (r.state, record)
  log := r.log
  fault := r.fault

namespace Linked
variable {τ σ : Type} {r r' r'' : Linked τ σ}

/-- Two outcomes that differ in the log at most. -/
structure Agree (r r' : Linked τ σ) : Prop where
  link : r.link = r'.link
  state : r.state = r'.state
  fault : r.fault = r'.fault

theorem Agree.refl (r : Linked τ σ) : r.Agree r := ⟨rfl, rfl, rfl⟩

theorem Agree.symm (h : r.Agree r') : r'.Agree r := ⟨h.link.symm, h.state.symm, h.fault.symm⟩

theorem Agree.trans (h : r.Agree r') (h' : r'.Agree r'') : r.Agree r'' :=
  ⟨h.link.trans h'.link, h.state.trans h'.state, h.fault.trans h'.fault⟩

end Linked

namespace Audience
variable {τ σ : Type} {audience : Audience τ σ}

theorem relay_link (now : τ) (o : Link.Outcome τ) (s : σ) : (audience.relay now o s).link = o.link := by
  unfold relay
  split <;> rfl

theorem relay_notice {now : τ} {o : Link.Outcome τ} {s : σ} (hf : (audience.relay now o s).fault = none) :
    ∃ notice, o.notice = .ok notice := by
  cases hn : o.notice with
  | ok notice => exact ⟨notice, rfl⟩
  | error f => simp [relay, hn] at hf

/-- Lets a link take a call and passes on what it notices. -/
def call [Timescale τ] (audience : Audience τ σ) (c : Link.Call τ) (l : Link τ) (s : σ) : Linked τ σ :=
  audience.relay c.now (l.outcome c) s

theorem process_eq_call [Timescale τ] (audience : Audience τ σ) (now : τ) (m : WireMessage) (l : Link τ)
    (s : σ) : audience.process now m l s = audience.call (.receive now m) l s := rfl

theorem checkTimeout_eq_call [Timescale τ] (audience : Audience τ σ) (now : τ) (l : Link τ) (s : σ) :
    audience.checkTimeout now l s = audience.call (.check now) l s := rfl

/-- Lets a link take calls until one of them has a fault. -/
def run [Timescale τ] (audience : Audience τ σ) : List (Link.Call τ) → Link τ → σ → Linked τ σ
  | [], l, s => ⟨l, s, [], none⟩
  | c :: calls, l, s =>
    let r := audience.call c l s
    match r.fault with
    | some _ => r
    | none =>
      let r' := audience.run calls r.link r.state
      { r' with log := r.log ++ r'.log }

section
variable [Timescale τ] {c : Link.Call τ} {calls : List (Link.Call τ)} {l : Link τ} {s : σ}

theorem run_cons_of_fault {f : Fault} (h : (audience.call c l s).fault = some f) :
    audience.run (c :: calls) l s = audience.call c l s := by
  simp [run, h]

theorem run_cons_of_ok (calls : List (Link.Call τ)) (h : (audience.call c l s).fault = none) :
    (audience.run (c :: calls) l s).Agree
      (audience.run calls (audience.call c l s).link (audience.call c l s).state) := by
  simp only [run, h]
  exact ⟨rfl, rfl, rfl⟩

theorem run_singleton (c : Link.Call τ) (l : Link τ) (s : σ) :
    (audience.run [c] l s).Agree (audience.call c l s) := by
  cases h : (audience.call c l s).fault with
  | some f => rw [run_cons_of_fault h]; exact .refl _
  | none => simp only [run, h]; exact ⟨rfl, rfl, h.symm⟩

/-- Calls after calls without a fault. -/
theorem run_append (calls' : List (Link.Call τ)) (h : (audience.run calls l s).fault = none) :
    (audience.run (calls ++ calls') l s).Agree
      (audience.run calls' (audience.run calls l s).link (audience.run calls l s).state) := by
  induction calls generalizing l s with
  | nil => exact .refl _
  | cons c calls ih =>
    cases hf : (audience.call c l s).fault with
    | some f => rw [run_cons_of_fault hf, hf] at h; cases h
    | none =>
      have hc := run_cons_of_ok calls hf
      rw [hc.fault] at h
      rw [hc.link, hc.state]
      exact (run_cons_of_ok _ hf).trans (ih h)

/-- A fault keeps later calls from being taken. -/
theorem run_append_of_fault (calls' : List (Link.Call τ)) {f : Fault}
    (h : (audience.run calls l s).fault = some f) :
    (audience.run (calls ++ calls') l s).Agree (audience.run calls l s) := by
  induction calls generalizing l s with
  | nil => cases h
  | cons c calls ih =>
    cases hf : (audience.call c l s).fault with
    | some f =>
      rw [List.cons_append, run_cons_of_fault hf, run_cons_of_fault hf]
      exact .refl _
    | none =>
      have hc := run_cons_of_ok calls hf
      rw [hc.fault] at h
      exact (run_cons_of_ok _ hf).trans ((ih h).trans hc.symm)

end

end Audience

/-- Someone who is told something of type `α` and may look at the link and at the clock. -/
abbrev Subscriber (τ σ α : Type) := Link τ → τ → α → σ → Reaction σ

/-- The subscriber that also writes down what it is told. -/
def Subscriber.recorded {τ σ α : Type} (f : Subscriber τ σ α) (heard : α → Heard) :
    Subscriber τ (σ × List Heard) α :=
  fun l now a s => (f l now a s.1).beside (s.2 ++ [heard a])

structure Roster (τ σ : Type) where
  handlers : List (Subscriber τ σ Message)
  listeners : List (Subscriber τ σ Bool)

namespace Roster
variable {τ σ : Type}

def audience (R : Roster τ σ) : Audience τ σ := fun l now =>
  { handlers := R.handlers.map fun f => f l now, listeners := R.listeners.map fun f => f l now }

/-- The roster that keeps a record. -/
def recorded (R : Roster τ σ) : Roster τ (σ × List Heard) where
  handlers := R.handlers.zipIdx.map fun p => p.1.recorded (.message p.2)
  listeners := R.listeners.zipIdx.map fun p => p.1.recorded (.connection p.2)

/-- What everyone hears of a notice. -/
def hears (R : Roster τ σ) : Notice → List Heard
  | .message m => R.handlers.zipIdx.map fun p => .message p.2 m
  | .connection connected => R.listeners.zipIdx.map fun p => .connection p.2 connected

theorem connection_mem_hears (R : Roster τ σ) (connected : Bool) {i : Nat}
    (h : i < R.listeners.length) : .connection i connected ∈ R.hears (.connection connected) := by
  refine List.mem_map.2 ⟨(R.listeners[i], i), ?_, rfl⟩
  exact List.mk_mem_zipIdx_iff_getElem?.2 (List.getElem?_eq_getElem h)

section
variable (l : Link τ) (now : τ)

theorem deliver_recorded (m : Message) (handlers : List (Subscriber τ σ Message)) (k : Nat) (s : σ)
    (t : List Heard) :
    Subscribers.deliver m (((handlers.zipIdx k).map fun p => p.1.recorded (.message p.2)).map
        fun f => f l now) (s, t) =
      (Subscribers.deliver m (handlers.map fun f => f l now) s).beside
        (t ++ (handlers.zipIdx k).map fun p => .message p.2 m) := by
  induction handlers generalizing k s t with
  | nil => simp [Subscribers.deliver, Reaction.beside]
  | cons f handlers ih =>
    simp only [List.zipIdx_cons, List.map_cons, Subscribers.deliver]
    rw [Subscriber.recorded, Reaction.beside, ih]
    simp [Reaction.beside]

theorem announce_recorded (connected : Bool) (listeners : List (Subscriber τ σ Bool)) (k : Nat) (s : σ)
    (t : List Heard) :
    ∃ heard, Subscribers.announce connected (((listeners.zipIdx k).map fun p =>
          p.1.recorded (.connection p.2)).map fun f => f l now) (s, t) =
        (Subscribers.announce connected (listeners.map fun f => f l now) s).beside heard ∧
      ((Subscribers.announce connected (listeners.map fun f => f l now) s).fault = none →
        heard = t ++ (listeners.zipIdx k).map fun p => .connection p.2 connected) := by
  induction listeners generalizing k s t with
  | nil => exact ⟨t, rfl, by simp⟩
  | cons f listeners ih =>
    simp only [Subscribers.announce, List.zipIdx_cons, List.map_cons, Reaction.untilFault] at ih ⊢
    rw [Subscriber.recorded, Reaction.beside]
    cases hf : (f l now connected s).fault with
    | some e => exact ⟨t ++ [.connection k connected], by simp [Reaction.beside], by simp⟩
    | none =>
      obtain ⟨heard, he, hh⟩ := ih (k + 1) (f l now connected s).state (t ++ [.connection k connected])
      refine ⟨heard, ?_, fun hn => ?_⟩
      · simp only [he]
        rfl
      · simp [hh hn]

theorem tell_recorded (R : Roster τ σ) (notice : Notice) (s : σ) (t : List Heard) :
    ∃ heard, (R.recorded.audience l now).tell notice (s, t) =
        ((R.audience l now).tell notice s).beside heard ∧
      (((R.audience l now).tell notice s).fault = none → heard = t ++ R.hears notice) := by
  cases notice with
  | message m => exact ⟨_, deliver_recorded l now m R.handlers 0 s t, fun _ => rfl⟩
  | connection connected => exact announce_recorded l now connected R.listeners 0 s t

end

/-- A call does the same to a recorded roster, and without a fault everyone hears what is noticed. -/
theorem recorded_call [Timescale τ] (R : Roster τ σ) (c : Link.Call τ) (l : Link τ) (s : σ)
    (t : List Heard) :
    ∃ heard, R.recorded.audience.call c l (s, t) = (R.audience.call c l s).beside heard ∧
      ((R.audience.call c l s).fault = none → ∃ notice, (l.outcome c).notice = .ok notice ∧
        heard = t ++ (notice.map R.hears).getD []) := by
  simp only [Audience.call, Audience.relay]
  rcases (l.outcome c).notice with f | - | notice
  · exact ⟨t, rfl, by simp⟩
  · exact ⟨t, rfl, fun _ => ⟨none, rfl, by simp⟩⟩
  · obtain ⟨heard, he, hh⟩ := R.tell_recorded (l.outcome c).link c.now notice s t
    refine ⟨heard, ?_, fun hf => ⟨some notice, rfl, hh hf⟩⟩
    simp only [he]
    rfl

end Roster
end InertialRelay
