import InertialRelay.Proofs.LinkChanges
import InertialRelay.Proofs.LoopCalls
import InertialRelay.Receiver

/-!
# Foreign systems

Once a receiver is locked to a system, messages from any other leave no trace: `Receiver.foreign_unheard`
compares two courses that differ in nothing but such messages. What carries it is that the lock is never
lost (`Receiver.Course.after_target`), so a foreign message finds the link locked wherever it is put.

A heartbeat whose autopilot cannot be read raises a fault whoever sent it, and is not called foreign.
-/

namespace InertialRelay

namespace Link
variable {τ : Type} {l : Link τ} {system : Int}

/-- Whether a message comes from another system than the one given, and is no unreadable heartbeat. -/
def Call.foreign (system : Int) : Call τ → Bool
  | .receive _ m => m.system != system && (m.type != "HEARTBEAT" || (code m "autopilot").isOk)
  | .check _ => false

theorem outcome_of_foreign [Timescale τ] (ht : l.target = some system) {c : Call τ}
    (hc : c.foreign system = true) : l.outcome c = { link := l } := by
  cases c with
  | check now => cases hc
  | receive now m =>
    simp only [Call.foreign, Bool.and_eq_true, bne_iff_ne, Bool.or_eq_true] at hc
    obtain ⟨hs, hb⟩ := hc
    have ha : l.admits m.system = false := by simp [admits, ht, hs]
    have hheartbeat : m.type = "HEARTBEAT" → l.heartbeat now m = { link := l } := by
      intro hm
      unfold heartbeat
      cases hcode : code m "autopilot" with
      | error f => simp [hm, hcode, Except.isOk, Except.toBool] at hb
      | ok autopilot => simp [ha]
    rw [outcome, receive, ha]
    split
    · rfl
    split
    next hm => exact hheartbeat hm
    next => rfl

end Link

/-- What every call keeps is kept by calls up to a fault. -/
theorem Audience.run_link {τ σ : Type} [Timescale τ] {P : Link τ → Prop}
    (h : ∀ l c, P l → P (l.outcome c).link) (A : Audience τ σ) (calls : List (Link.Call τ)) {l : Link τ}
    (hl : P l) (s : σ) : P (A.run calls l s).link := by
  induction calls generalizing l s with
  | nil => exact hl
  | cons c calls ih =>
    have hc : P (A.call c l s).link := by
      rw [call, relay_link]
      exact h l c hl
    cases hf : (A.call c l s).fault with
    | some f => rwa [run_cons_of_fault hf]
    | none =>
      rw [(run_cons_of_ok calls hf).link]
      exact ih hc _

theorem ReadLoop.run_link {τ σ : Type} [Timescale τ] {P : Link τ → Prop}
    (h : ∀ l c, P l → P (l.outcome c).link) (A : Audience τ σ) (script : List (Cycle τ)) {l : Link τ}
    (hl : P l) (s : σ) : P (run A script l s).link := by
  induction script generalizing l s with
  | nil => exact hl
  | cons c script ih =>
    have ht : P (turn A c l s).link := by
      rw [(turn_agree A c l s).link]
      exact A.run_link h c.calls hl s
    rw [run]
    split
    · exact ht
    · exact ih ht _

namespace Receiver
variable {σ : Type} {system : Int}

/-- What an owner asks of its receiver. With each call come those who are subscribed at that time. -/
inductive Call (σ : Type) where
  | link (R : Roster Num σ) (c : Link.Call Num)
  | start (R : Roster Num σ) (t : Transport) (now : Num)
  | stop

def Call.foreign (system : Int) : Call σ → Bool
  | .link _ c => c.foreign system
  | .start .. | .stop => false

/-- A receiver and its subscribers after calls, with all that was heard, logged and raised. -/
structure Course (σ : Type) where
  receiver : Receiver
  state : σ
  heard : List Heard := []
  log : Log := []
  faults : List Fault := []

namespace Course

/-- A course after one more call, which is taken whatever faults there were before. -/
def after (x : Course σ) : Call σ → Course σ
  | .link R c =>
    let r := R.recorded.audience.call c x.receiver.link (x.state, x.heard)
    { receiver := { x.receiver with link := r.link }
      state := r.state.1
      heard := r.state.2
      log := x.log ++ r.log
      faults := x.faults ++ r.fault.toList }
  | .start R t now =>
    let r := x.receiver.start R.recorded.audience t now (x.state, x.heard)
    { receiver := r.receiver
      state := r.state.1
      heard := r.state.2
      log := x.log ++ r.log ++ r.readLog
      faults := x.faults ++ r.fault.toList ++ r.readFault.toList }
  | .stop => { x with receiver := x.receiver.stop.1, log := x.log ++ x.receiver.stop.2 }

def run (x : Course σ) (calls : List (Call σ)) : Course σ := calls.foldl after x

theorem after_target {x : Course σ} (h : x.receiver.link.target = some system) (c : Call σ) :
    (x.after c).receiver.link.target = some system := by
  have hkeep : ∀ (l : Link Num) c, l.target = some system → (l.outcome c).link.target = some system :=
    fun l c => (l.outcome_change c).target
  cases c with
  | link R c =>
    show (R.recorded.audience.call c x.receiver.link (x.state, x.heard)).link.target = some system
    rw [Audience.call, Audience.relay_link]
    exact hkeep _ c h
  | start R t now =>
    show (x.receiver.start R.recorded.audience t now (x.state, x.heard)).receiver.link.target = some system
    unfold start
    split
    · exact h
    split
    · exact h
    -- the loop may end in a fault, and the lock is kept up to it
    · exact ReadLoop.run_link hkeep _ _ h _
  | stop =>
    show x.receiver.stop.1.link.target = some system
    unfold stop
    split <;> exact h

theorem run_target {x : Course σ} (h : x.receiver.link.target = some system) (calls : List (Call σ)) :
    (x.run calls).receiver.link.target = some system := by
  induction calls generalizing x with
  | nil => exact h
  | cons c calls ih => exact ih (after_target h c)

theorem after_of_foreign {x : Course σ} (h : x.receiver.link.target = some system) {c : Call σ}
    (hc : c.foreign system = true) : x.after c = x := by
  cases c with
  | start | stop => cases hc
  | link R c =>
    have ho := Link.outcome_of_foreign h hc
    simp [after, Audience.call, Audience.relay, ho]

theorem run_filter {x : Course σ} (h : x.receiver.link.target = some system) (calls : List (Call σ)) :
    x.run (calls.filter (!·.foreign system)) = x.run calls := by
  -- a foreign message leaves the course as it is, any other call leaves it locked for those to come
  induction calls generalizing x with
  | nil => rfl
  | cons c calls ih =>
    cases hc : c.foreign system with
    | true =>
      rw [List.filter_cons_of_neg (by simp [hc]), ih h, run, run, List.foldl_cons, after_of_foreign h hc]
    | false =>
      rw [List.filter_cons_of_pos (by simp [hc])]
      exact ih (after_target h c)

end Course

/-- A receiver that is locked to a system is locked to it for ever. Two courses from there that differ
in foreign messages only agree in all that the subscribers are told and do, in what is logged and raised,
and in the receiver they lead to. -/
theorem foreign_unheard {x : Course σ} (h : x.receiver.link.target = some system)
    {calls calls' : List (Call σ)}
    (he : calls.filter (!·.foreign system) = calls'.filter (!·.foreign system)) :
    (x.run calls).receiver.link.target = some system ∧ x.run calls = x.run calls' := by
  refine ⟨x.run_target h calls, ?_⟩
  rw [← Course.run_filter h calls, he, Course.run_filter h calls']

theorem foreign_unheard_timeout :
    let R : Roster Num Unit := ⟨[fun _ _ _ s => { state := s }], [fun _ _ _ s => { state := s }]⟩
    let beat (system : Int) : WireMessage :=
      ⟨"HEARTBEAT", system, [("autopilot", .int 3), ("type", .int 2)]⟩
    let x : Course Unit :=
      Course.run { receiver := .ofSettings ⟨"udp:0.0.0.0:14550", 255, 191, 10⟩, state := () }
        [.link R (.receive (.int 0) (beat 1))]
    let calls : List (Call Unit) :=
      [.link R (.receive (.int 9) (beat 2)), .link R (.receive (.int 15) ⟨"ATTITUDE", 2, []⟩),
        .link R (.check (.int 20)), .stop]
    let calls' : List (Call Unit) := [.link R (.check (.int 20)), .stop]
    x.receiver.link.target = some 1 ∧
      calls.filter (!·.foreign 1) = calls'.filter (!·.foreign 1) ∧
      x.run calls = x.run calls' ∧
      (x.run calls').heard = [.connection 0 true, .connection 0 false] := by
  intro R beat x calls calls'
  have ht : x.receiver.link.target = some 1 := by rfl
  have he : calls.filter (!·.foreign 1) = calls'.filter (!·.foreign 1) := by rfl
  exact ⟨ht, he, (foreign_unheard ht he).2, by decide +kernel⟩

end Receiver
end InertialRelay
