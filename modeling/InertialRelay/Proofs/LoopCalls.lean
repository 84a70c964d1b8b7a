import InertialRelay.Proofs.Roster
import InertialRelay.ReadLoop

/-!
# The loop as calls on the link

Up to the lines about the transport, a loop is nothing but the calls that its turns make on the link
(`ReadLoop.run_agree`). A roster that keeps a record makes no difference to it (`ReadLoop.run_recorded`).
-/

namespace InertialRelay

namespace Cycle
variable {τ : Type} {c : Cycle τ}

/-- Whether the transport failed in a turn. -/
def failed (c : Cycle τ) : Bool :=
  match c.received with
  | .failed _ => true
  | .nothing | .message _ => false

/-- What a turn asks of the link. -/
def calls (c : Cycle τ) : List (Link.Call τ) :=
  match c.received, c.stopped with
  | .nothing, false => [.check c.atCheck]
  | .message m, false => [.receive c.atMessage m, .check c.atCheck]
  | _, _ => []

/-- A turn that looks for a timeout does so last. -/
theorem calls_of_checks (hs : c.stopped = false) (hc : c.failed = false) :
    ∃ calls, c.calls = calls ++ [.check c.atCheck] := by
  rcases hr : c.received with - | text | m
  · exact ⟨[], by simp [calls, hr, hs]⟩
  · simp [failed, hr] at hc
  · exact ⟨[.receive c.atMessage m], by simp [calls, hr, hs]⟩

theorem calls_of_failed (hc : c.failed = true) : c.calls = [] := by
  rcases hr : c.received with - | text | m
  · simp [failed, hr] at hc
  · simp [calls, hr]
  · simp [failed, hr] at hc

end Cycle

namespace ReadLoop
variable {τ σ : Type} [Timescale τ] {A : Audience τ σ} {script : List (Cycle τ)} {c : Cycle τ}
  {l : Link τ} {s : σ}

theorem turn_agree (A : Audience τ σ) (c : Cycle τ) (l : Link τ) (s : σ) :
    (turn A c l s).Agree (A.run c.calls l s) := by
  rcases hr : c.received with - | text | m <;> cases hs : c.stopped <;>
    simp only [turn, hr, hs, Cycle.calls, Bool.false_eq_true, if_false, if_true,
      Audience.process_eq_call, Audience.checkTimeout_eq_call]
  case nothing.false => exact (Audience.run_singleton _ l s).symm
  case message.false =>
    cases hp : (A.call (.receive c.atMessage m) l s).fault with
    | some f =>
      rw [Audience.run_cons_of_fault hp]
      exact .refl _
    | none =>
      have hr := (Audience.run_cons_of_ok _ hp).trans (Audience.run_singleton (.check c.atCheck) _ _)
      exact ⟨hr.link.symm, hr.state.symm, hr.fault.symm⟩
  all_goals exact ⟨rfl, rfl, rfl⟩

/-- A loop that is not stopped before its last turn. -/
theorem run_agree (A : Audience τ σ) (hs : ∀ d ∈ script.dropLast, d.stopped = false) (l : Link τ) (s : σ) :
    (run A script l s).Agree (A.run (script.flatMap Cycle.calls) l s) := by
  induction script generalizing l s with
  | nil => exact .refl _
  | cons c script ih =>
    have ht := turn_agree A c l s
    rw [List.flatMap_cons]
    cases hf : (turn A c l s).fault with
    | some f =>
      have hr : run A (c :: script) l s = turn A c l s := by simp [run, hf]
      rw [hr]
      exact ht.trans (Audience.run_append_of_fault _ (ht.fault.symm.trans hf)).symm
    | none =>
      have ha := Audience.run_append (script.flatMap Cycle.calls) (ht.fault.symm.trans hf)
      rw [← ht.link, ← ht.state] at ha
      refine .trans ?_ ha.symm
      cases script with
      | nil =>
        cases hc : c.stopped <;> simp only [run, hc, hf, Option.isSome_none, Bool.or_false,
          Bool.false_eq_true, if_false, if_true]
        · exact ⟨rfl, rfl, rfl⟩
        · exact ⟨rfl, rfl, hf⟩
      | cons d script =>
        have hc : c.stopped = false := hs c (by simp)
        have hr := ih (fun d hm => hs d (by simp [hm])) (turn A c l s).link (turn A c l s).state
        rw [run, hc, hf]
        exact ⟨hr.link, hr.state, hr.fault⟩

/-- Of its audience a loop only knows how they react to what they are told. -/
theorem run_congr {A A' : Audience τ σ}
    (h : ∀ l now notice s, (A l now).tell notice s = (A' l now).tell notice s) (script : List (Cycle τ))
    (l : Link τ) (s : σ) : run A script l s = run A' script l s := by
  have hrelay : ∀ now o s, A.relay now o s = A'.relay now o s := by
    intro now o s
    unfold Audience.relay
    simp only [h]
  have hturn : ∀ c l s, turn A c l s = turn A' c l s := by
    intro c l s
    simp only [turn, Audience.process, Audience.checkTimeout, hrelay]
  induction script generalizing l s with
  | nil => rfl
  | cons c script ih => simp only [run, hturn, ih]

theorem turn_recorded (R : Roster τ σ) (c : Cycle τ) (l : Link τ) (s : σ) (heard : List Heard) :
    ∃ heard', turn R.recorded.audience c l (s, heard) = (turn R.audience c l s).beside heard' := by
  rcases hr : c.received with - | text | w <;> simp only [turn, hr]
  case failed => exact ⟨heard, rfl⟩
  case nothing =>
    split
    · exact ⟨heard, rfl⟩
    · obtain ⟨heard', he, -⟩ := R.recorded_call (.check c.atCheck) l s heard
      exact ⟨heard', he⟩
  case message =>
    split
    · exact ⟨heard, rfl⟩
    obtain ⟨heard', he, -⟩ := R.recorded_call (.receive c.atMessage w) l s heard
    rw [Audience.process_eq_call, Audience.process_eq_call, he]
    cases hf : (R.audience.call (.receive c.atMessage w) l s).fault with
    | some f => exact ⟨heard', by simp [Linked.beside, hf]⟩
    | none =>
      obtain ⟨heard'', he', -⟩ := R.recorded_call (.check c.atCheck)
        (R.audience.call (.receive c.atMessage w) l s).link
        (R.audience.call (.receive c.atMessage w) l s).state heard'
      exact ⟨heard'', by simp [Linked.beside, hf, Audience.checkTimeout_eq_call, he']⟩

/-- A loop does the same to a recorded roster. -/
theorem run_recorded (R : Roster τ σ) (script : List (Cycle τ)) (l : Link τ) (s : σ) (heard : List Heard) :
    ∃ heard', run R.recorded.audience script l (s, heard) = (run R.audience script l s).beside heard' := by
  induction script generalizing l s heard with
  | nil => exact ⟨heard, rfl⟩
  | cons c script ih =>
    obtain ⟨heard', ht⟩ := turn_recorded R c l s heard
    simp only [run, ht]
    split
    next hstop => exact ⟨heard', by simp only [Linked.beside] at hstop ⊢; rw [if_pos hstop]⟩
    next hgo =>
      obtain ⟨heard'', he⟩ := ih (turn R.audience c l s).link (turn R.audience c l s).state heard'
      refine ⟨heard'', ?_⟩
      simp only [Linked.beside] at hgo he ⊢
      rw [if_neg hgo, he]

end ReadLoop
end InertialRelay
