import InertialRelay.Proofs.LoopCalls

/-!
# When the loss of a vehicle is noticed

`ReadLoop.loss_noticed_iff`: at the end of a turn by which the heartbeats have stopped for longer than
the timeout, the vehicle counts as lost and every listener was told so since the last heartbeat,
unless it is a turn in which the transport failed while the vehicle still counted as connected: such
a turn does not look for a timeout.
-/

namespace InertialRelay

namespace Watch
variable {τ : Type} [Timescale τ] {w : Watch τ}

theorem overdue_next_check (w : Watch τ) (timeout now : τ) :
    (w.next timeout (.check now)).overdue timeout now = w.overdue timeout now := by
  rw [next_check]
  rfl

theorem connected_of_overdue {timeout now : τ} (h : w.overdue timeout now = true) :
    (w.next timeout (.check now)).connected = false := by
  simp [next_check, h]

theorem beats_of_overdue {timeout now : τ} (h : w.overdue timeout now = true) : w.beats ≠ [] := by
  intro hb
  simp [overdue, hb] at h

end Watch

/-- A link with its subscribers, its history, and what was heard since the last heartbeat. -/
structure Vigil (τ σ : Type) where
  link : Link τ
  state : σ
  watch : Watch τ := {}
  heard : List Heard := []

namespace Roster
variable {τ σ : Type} [Timescale τ] {R : Roster τ σ} {v : Vigil τ σ} {c : Link.Call τ}

/-- A vigil after a call. An accepted heartbeat begins the record anew. -/
def attend (R : Roster τ σ) (v : Vigil τ σ) (c : Link.Call τ) : Vigil τ σ :=
  let heard := if (v.watch.beat? c).isSome then [] else v.heard
  let r := R.recorded.audience.call c v.link (v.state, heard)
  { link := r.link, state := r.state.1, watch := v.watch.next v.link.timeout c, heard := r.state.2 }

theorem attend_eq (R : Roster τ σ) (v : Vigil τ σ) (c : Link.Call τ) :
    ∃ heard, R.attend v c =
        { link := (R.audience.call c v.link v.state).link
          state := (R.audience.call c v.link v.state).state
          watch := v.watch.next v.link.timeout c
          heard } ∧
      ((R.audience.call c v.link v.state).fault = none →
        ∃ notice, (v.link.outcome c).notice = .ok notice ∧ heard =
          (if (v.watch.beat? c).isSome then [] else v.heard) ++ (notice.map R.hears).getD []) := by
  obtain ⟨heard, he, hh⟩ := R.recorded_call c v.link v.state
    (if (v.watch.beat? c).isSome then [] else v.heard)
  refine ⟨heard, ?_, hh⟩
  rw [attend, he]
  rfl

theorem attend_link (R : Roster τ σ) (v : Vigil τ σ) (c : Link.Call τ) :
    (R.attend v c).link = (R.audience.call c v.link v.state).link := by
  obtain ⟨heard, he, -⟩ := R.attend_eq v c
  rw [he]

theorem attend_state (R : Roster τ σ) (v : Vigil τ σ) (c : Link.Call τ) :
    (R.attend v c).state = (R.audience.call c v.link v.state).state := by
  obtain ⟨heard, he, -⟩ := R.attend_eq v c
  rw [he]

theorem attend_timeout (R : Roster τ σ) (v : Vigil τ σ) (c : Link.Call τ) :
    (R.attend v c).link.timeout = v.link.timeout := by
  rw [attend_link, Audience.call, Audience.relay_link, Link.outcome_timeout]

theorem foldl_attend_timeout (R : Roster τ σ) (calls : List (Link.Call τ)) (v : Vigil τ σ) :
    (calls.foldl R.attend v).link.timeout = v.link.timeout := by
  induction calls generalizing v with
  | nil => rfl
  | cons c calls ih => rw [List.foldl_cons, ih, attend_timeout]

/-- A vigil that missed nothing: if the vehicle is lost then every listener heard of it since the last
heartbeat. -/
structure Alert (R : Roster τ σ) (v : Vigil τ σ) : Prop where
  tracks : v.link.Tracks v.watch
  heard : v.watch.beats ≠ [] → v.watch.connected = false →
    ∀ i < R.listeners.length, Heard.connection i false ∈ v.heard

theorem Alert.attend (h : R.Alert v) (hf : (R.audience.call c v.link v.state).fault = none) :
    R.Alert (R.attend v c) := by
  obtain ⟨heard, he, hh⟩ := R.attend_eq v c
  obtain ⟨notice, hn, rfl⟩ := hh hf
  obtain ⟨hw, ht⟩ := h.tracks.outcome _ notice hn
  rw [he]
  refine ⟨by rw [Audience.call, Audience.relay_link]; exact ht, fun hb hc i hi => ?_⟩
  cases hbeat : v.watch.beat? c with
  | some beat =>
    -- the record begins anew, but the vehicle is connected then
    rw [Watch.connected_of_beat _ hbeat] at hc
    cases hc
  | none =>
    have hbeats : v.watch.beats ≠ [] := by
      simpa [Watch.next, hbeat] using hb
    have hold := h.heard hbeats
    simp only [Watch.next, ← hw] at hc
    rcases notice with - | m | connected
    · exact List.mem_append_left _ (hold hc i hi)
    · exact List.mem_append_left _ (hold hc i hi)
    · subst hc
      exact List.mem_append_right _ (R.connection_mem_hears false hi)

/-- A vigil over calls without a fault misses nothing. -/
theorem Alert.run (h : R.Alert v) {calls : List (Link.Call τ)}
    (hf : (R.audience.run calls v.link v.state).fault = none) :
    R.Alert (calls.foldl R.attend v) ∧
    (calls.foldl R.attend v).link = (R.audience.run calls v.link v.state).link := by
  induction calls generalizing v with
  | nil => exact ⟨h, rfl⟩
  | cons c calls ih =>
    cases hc : (R.audience.call c v.link v.state).fault with
    | some f =>
      rw [Audience.run_cons_of_fault hc, hc] at hf
      cases hf
    | none =>
      have hr := Audience.run_cons_of_ok calls hc
      rw [hr.fault, ← attend_link, ← attend_state] at hf
      rw [hr.link, ← attend_link, ← attend_state]
      exact ih (h.attend hc) hf

/-- The vigil over calls on a new link. -/
def vigil (R : Roster τ σ) (timeout : τ) (s : σ) (calls : List (Link.Call τ)) : Vigil τ σ :=
  calls.foldl R.attend { link := { timeout }, state := s }

theorem vigil_timeout (R : Roster τ σ) (timeout : τ) (s : σ) (calls : List (Link.Call τ)) :
    (R.vigil timeout s calls).link.timeout = timeout :=
  R.foldl_attend_timeout calls _

theorem vigil_alert {timeout : τ} {s : σ} {calls : List (Link.Call τ)}
    (hf : (R.audience.run calls { timeout } s).fault = none) :
    R.Alert (R.vigil timeout s calls) ∧
    (R.vigil timeout s calls).link = (R.audience.run calls { timeout } s).link :=
  Alert.run (v := { link := { timeout }, state := s }) ⟨.new timeout, fun h => absurd rfl h⟩ hf

/-- After a look for a timeout that is due the vehicle counts as lost. -/
theorem vigil_check {timeout now : τ} {s : σ} {calls : List (Link.Call τ)}
    (h : (R.vigil timeout s (calls ++ [.check now])).watch.overdue timeout now = true) :
    (R.vigil timeout s (calls ++ [.check now])).watch.connected = false := by
  have hw : (R.vigil timeout s (calls ++ [.check now])).watch =
      (R.vigil timeout s calls).watch.next timeout (.check now) := by
    rw [vigil, List.foldl_append]
    show (R.vigil timeout s calls).watch.next (R.vigil timeout s calls).link.timeout _ = _
    rw [vigil_timeout]
  rw [hw, Watch.overdue_next_check] at h
  rw [hw]
  exact Watch.connected_of_overdue h

end Roster

namespace ReadLoop
variable {τ σ : Type} [Timescale τ] {R : Roster τ σ} {timeout : τ} {s s' : σ} {l : Link τ} {log : Log}
  {before : List (Link.Call τ)} {script : List (Cycle τ)} {c : Cycle τ}

/-- The vigil over a loop that is started after calls without a fault. -/
theorem vigil_loop (hb : R.audience.run before { timeout } s = { link := l, state := s', log })
    (hs : ∀ d ∈ script.dropLast, d.stopped = false)
    (hf : (run R.audience script l s').fault = none) :
    R.Alert (R.vigil timeout s (before ++ script.flatMap Cycle.calls)) ∧
    (R.vigil timeout s (before ++ script.flatMap Cycle.calls)).link =
      (run R.audience script l s').link := by
  have hr := run_agree R.audience hs l s'
  have ha := Audience.run_append (script.flatMap Cycle.calls) (by rw [hb] :
    (R.audience.run before { timeout } s).fault = none)
  rw [hb] at ha
  obtain ⟨hv, hl⟩ := Roster.vigil_alert (ha.fault.trans (hr.fault.symm.trans hf))
  exact ⟨hv, hl.trans (ha.link.trans hr.link.symm)⟩

/-- A loop is started after calls without a fault and runs without one. At the end of a complete turn
the last accepted heartbeat is longer ago than the timeout. Then the vehicle counts as lost, and
every listener was told so since that heartbeat, exactly if the transport did not fail in this turn
or the vehicle counted as lost before it. -/
theorem loss_noticed_iff (hb : R.audience.run before { timeout } s = { link := l, state := s', log })
    (hs : ∀ d ∈ script, d.stopped = false) (hc : c.stopped = false ∨ c.failed = true)
    (hf : (run R.audience (script ++ [c]) l s').fault = none)
    (hlate : (R.vigil timeout s (before ++ (script ++ [c]).flatMap Cycle.calls)).watch.overdue
      timeout c.atCheck = true) :
    ((run R.audience (script ++ [c]) l s').link.connected = false ∧
      ∀ i < R.listeners.length, .connection i false ∈
        (R.vigil timeout s (before ++ (script ++ [c]).flatMap Cycle.calls)).heard) ↔
    ¬ (c.failed = true ∧ (run R.audience script l s').link.connected = true) := by
  have hs' : ∀ d ∈ (script ++ [c]).dropLast, d.stopped = false := by
    rwa [List.dropLast_concat]
  obtain ⟨ha, hl⟩ := vigil_loop hb hs' hf
  have hheard := ha.heard (Watch.beats_of_overdue hlate)
  rw [← ha.tracks.connected, hl] at hheard
  cases hfail : c.failed with
  | true =>
    have hcalls : (script ++ [c]).flatMap Cycle.calls = script.flatMap Cycle.calls := by
      simp [Cycle.calls_of_failed hfail]
    have hr := run_agree R.audience hs' l s'
    have hr' := run_agree R.audience (fun d hm => hs d (List.dropLast_subset _ hm)) l s'
    rw [hcalls] at hr
    rw [← (hr.trans hr'.symm).link]
    simp only [true_and, Bool.not_eq_true]
    exact ⟨fun h => h.1, fun h => ⟨h, hheard h⟩⟩
  | false =>
    obtain ⟨calls, hcalls⟩ := Cycle.calls_of_checks (hc.resolve_right (by simp [hfail])) hfail
    have hlost : (run R.audience (script ++ [c]) l s').link.connected = false := by
      rw [← hl, ha.tracks.connected]
      rw [List.flatMap_append, List.flatMap_singleton, hcalls, ← List.append_assoc,
        ← List.append_assoc] at hlate ⊢
      exact Roster.vigil_check hlate
    exact ⟨fun _ => by simp, fun _ => ⟨hlost, hheard hlost⟩⟩

theorem loss_noticed_idle :
    let R : Roster Num Unit := ⟨[], [fun _ _ _ s => { state := s }]⟩
    let beat : WireMessage := ⟨"HEARTBEAT", 1, [("autopilot", .int 3), ("type", .int 2)]⟩
    let before : List (Link.Call Num) := [.receive (.int 0) beat]
    let script : List (Cycle Num) := [{ received := .nothing, atMessage := .int 5, atCheck := .int 5 }]
    let c : Cycle Num := { received := .nothing, atMessage := .int 20, atCheck := .int 20 }
    ∃ l log, R.audience.run before { timeout := .real 10 } () = { link := l, state := (), log } ∧
      (∀ d ∈ script, d.stopped = false) ∧ c.stopped = false ∧
      (run R.audience (script ++ [c]) l ()).fault = none ∧
      (R.vigil (.real 10) () (before ++ (script ++ [c]).flatMap Cycle.calls)).watch.overdue (.real 10)
        c.atCheck = true ∧
      (run R.audience (script ++ [c]) l ()).link.connected = false ∧
      ∀ i < 1, .connection i false ∈
        (R.vigil (.real 10) () (before ++ (script ++ [c]).flatMap Cycle.calls)).heard := by
  intro R beat before script c
  refine ⟨_, _, rfl, ?_⟩
  have hs : ∀ d ∈ script, d.stopped = false := by simp [script]
  have hf : (run R.audience (script ++ [c]) (R.audience.run before { timeout := .real 10 } ()).link
      ()).fault = none := by rfl
  have hl : (R.vigil (.real 10) () (before ++ (script ++ [c]).flatMap Cycle.calls)).watch.overdue
      (.real 10) c.atCheck = true := by decide +kernel
  exact ⟨hs, rfl, hf, hl, (loss_noticed_iff rfl hs (.inl rfl) hf hl).2 (by simp [c, Cycle.failed])⟩

/-- A transport that fails after the last heartbeat keeps the vehicle connected. -/
theorem loss_unnoticed :
    let R : Roster Num Unit := ⟨[], [fun _ _ _ s => { state := s }]⟩
    let beat : WireMessage := ⟨"HEARTBEAT", 1, [("autopilot", .int 3), ("type", .int 2)]⟩
    let before : List (Link.Call Num) := [.receive (.int 0) beat]
    let c : Cycle Num := { received := .failed "down", atMessage := .int 20, atCheck := .int 20 }
    ∃ l log, R.audience.run before { timeout := .real 10 } () = { link := l, state := (), log } ∧
      (run R.audience [c] l ()).fault = none ∧
      (R.vigil (.real 10) () (before ++ [c].flatMap Cycle.calls)).watch.overdue (.real 10)
        c.atCheck = true ∧
      (run R.audience [c] l ()).link.connected = true ∧
      (R.vigil (.real 10) () (before ++ [c].flatMap Cycle.calls)).heard = [.connection 0 true] := by
  intro R beat before c
  exact ⟨_, _, rfl, by rfl, by decide +kernel, by rfl, by decide +kernel⟩

end ReadLoop
end InertialRelay
