import InertialRelay.Proofs.LinkChanges
import Mathlib.Algebra.Order.Ring.Rat
import Mathlib.Data.List.Induction
import Mathlib.Tactic.NormNum

/-!
# The timeout on an exact clock

On a clock whose readings are exact numbers, a vehicle is connected after a look for the timeout exactly
if its last accepted heartbeat is no longer ago than the timeout (`Audience.connected_iff_recent`). The
link itself only ever compares while it is connected. That it need not compare again once the vehicle is
lost is `Watch.late_of_lost`: what was too long ago stays so on a clock that does not go back.
-/

namespace InertialRelay

/-- Clock readings whose differences are exact. -/
instance (priority := low) Timescale.exact {τ : Type} [AddCommGroup τ] [LinearOrder τ] : Timescale τ where
  between earlier later := .ok (later - earlier)
  less a b := decide (a < b)

namespace Link
variable {τ : Type}

/-- A heartbeat of which the autopilot and the vehicle type can be read, or no heartbeat. -/
def Call.WellFormed : Call τ → Prop
  | .receive _ m => m.type = "HEARTBEAT" →
      (∃ autopilot, code m "autopilot" = .ok autopilot) ∧ ∃ vehicleType, code m "type" = .ok vehicleType
  | .check _ => True

/-- The heartbeats that are accepted in calls, the latest one first. -/
def accepted (calls : List (Call τ)) : List (Beat τ) :=
  calls.foldl (fun beats c => (({ beats } : Watch τ).beat? c).toList ++ beats) []

theorem accepted_concat (calls : List (Call τ)) (c : Call τ) :
    accepted (calls ++ [c]) = (({ beats := accepted calls } : Watch τ).beat? c).toList ++ accepted calls := by
  simp [accepted]

theorem receive_ok {l : Link τ} {now : τ} {m : WireMessage} (hm : (Call.receive now m).WellFormed) :
    ∃ notice, (l.receive now m).notice = .ok notice := by
  unfold receive
  split
  · exact ⟨none, rfl⟩
  split
  next ht =>
    obtain ⟨⟨autopilot, ha⟩, vehicleType, hv⟩ := hm ht
    simp only [heartbeat, ha, hv, beat]
    split
    · exact ⟨none, rfl⟩
    split
    · exact ⟨none, rfl⟩
    · exact ⟨_, rfl⟩
  split
  · exact ⟨none, rfl⟩
  · exact ⟨_, rfl⟩

variable [AddCommGroup τ] [LinearOrder τ]

theorem outcome_ok {c : Call τ} (hc : c.WellFormed) (l : Link τ) :
    ∃ notice, (l.outcome c).notice = .ok notice := by
  cases c with
  | receive now m => exact receive_ok hc
  | check now =>
    simp only [outcome, checkTimeout, Timescale.between, lose]
    split
    · split <;> exact ⟨_, rfl⟩
    · exact ⟨none, rfl⟩

end Link

theorem Watch.beat?_beats {τ : Type} (w : Watch τ) (c : Link.Call τ) :
    ({ beats := w.beats } : Watch τ).beat? c = w.beat? c := by
  cases c <;> rfl

namespace Watch
variable {τ : Type} [AddCommGroup τ] [LinearOrder τ] {w : Watch τ} {timeout now : τ}
  {calls : List (Link.Call τ)} {beat : Beat τ}

theorem overdue_iff (h : w.beats.head? = some beat) :
    w.overdue timeout now = true ↔ timeout < now - beat.time := by
  simp [overdue, h, Timescale.between, Timescale.less]

def ofCalls (timeout : τ) (calls : List (Link.Call τ)) : Watch τ := calls.foldl (next timeout) {}

theorem ofCalls_concat (timeout : τ) (calls : List (Link.Call τ)) (c : Link.Call τ) :
    ofCalls timeout (calls ++ [c]) = (ofCalls timeout calls).next timeout c := by
  simp [ofCalls]

theorem ofCalls_beats (timeout : τ) (calls : List (Link.Call τ)) :
    (ofCalls timeout calls).beats = Link.accepted calls := by
  induction calls using List.reverseRecOn with
  | nil => rfl
  | append_singleton calls c ih =>
    rw [ofCalls_concat, Link.accepted_concat, ← ih, beat?_beats]
    rfl

theorem beat?_of_accepted (timeout : τ) {c : Link.Call τ}
    (h : Link.accepted (calls ++ [c]) = beat :: Link.accepted calls) :
    (ofCalls timeout calls).beat? c = some beat := by
  rw [Link.accepted_concat, ← ofCalls_beats timeout calls, beat?_beats] at h
  cases hb : (ofCalls timeout calls).beat? c with
  | none => simp [hb] at h
  | some beat' => simpa [hb] using h

/-- The last heartbeat of a vehicle that was lost stays too long ago. -/
theorem late_of_lost [IsOrderedAddMonoid τ] (hnow : ∀ c ∈ calls, c.now ≤ now)
    (hc : (ofCalls timeout calls).connected = false)
    (hhead : (ofCalls timeout calls).beats.head? = some beat) : timeout < now - beat.time := by
  -- the vehicle was lost at the last look that found it connected, and no heartbeat was accepted since
  induction calls using List.reverseRecOn with
  | nil => cases hhead
  | append_singleton calls c ih =>
    have hbefore : ∀ d ∈ calls, d.now ≤ now := fun d hd => hnow d (by simp [hd])
    rw [ofCalls_concat] at hc hhead
    cases c with
    | receive past m =>
      cases hb : (ofCalls timeout calls).beat? (.receive past m) with
      | some beat' =>
        rw [connected_of_beat timeout hb] at hc
        cases hc
      | none =>
        rw [next_receive timeout hb] at hc hhead
        exact ih hbefore hc hhead
    | check past =>
      rw [next_check] at hc hhead
      cases hconn : (ofCalls timeout calls).connected with
      | false => exact ih hbefore hconn hhead
      | true =>
        have hold : (ofCalls timeout calls).beats.head? = some beat := hhead
        have hlate : timeout < past - beat.time := by
          rw [← overdue_iff hold]
          simpa [hconn] using hc
        have hle : past ≤ now := hnow (.check past) (by simp)
        exact hlate.trans_le (sub_le_sub_right hle _)

end Watch

namespace Link
variable {τ : Type} [AddCommGroup τ] [LinearOrder τ] {l : Link τ} {w : Watch τ}

theorem Tracks.run (h : l.Tracks w) {calls : List (Call τ)} (hw : ∀ c ∈ calls, c.WellFormed) :
    (l.run calls).Tracks (calls.foldl (Watch.next l.timeout) w) := by
  induction calls generalizing l w with
  | nil => exact h
  | cons c calls ih =>
    obtain ⟨notice, hn⟩ := outcome_ok (hw c (by simp)) l
    have ht := ih (h.outcome c notice hn).2 fun d hd => hw d (by simp [hd])
    rw [outcome_timeout] at ht
    exact ht

theorem run_tracks (timeout : τ) {calls : List (Call τ)} (hw : ∀ c ∈ calls, c.WellFormed) :
    (({ timeout } : Link τ).run calls).Tracks (.ofCalls timeout calls) :=
  (Tracks.new timeout).run hw

end Link

namespace Audience

/-- A link takes calls in which every heartbeat is well formed, on an exact clock. After a look for the
timeout at a reading that no reading before it exceeds, as on a clock that does not go back, the vehicle
is connected exactly if a heartbeat was accepted and the latest one is no longer ago than the timeout.
After an accepted heartbeat it is connected at any rate. What the subscribers do is of no account. -/
theorem connected_iff_recent {τ σ : Type} [AddCommGroup τ] [LinearOrder τ] [IsOrderedAddMonoid τ]
    (A : Audience τ σ) (timeout : τ) (s : σ) {calls : List (Link.Call τ)}
    (hw : ∀ c ∈ calls, c.WellFormed) :
    (∀ now, (∀ c ∈ calls, c.now ≤ now) →
      ((A.course (calls ++ [.check now]) { timeout } s).1.connected = true ↔
        ∃ beat, (Link.accepted calls).head? = some beat ∧ now - beat.time ≤ timeout)) ∧
    ∀ now m beat, (Link.Call.receive now m).WellFormed →
      Link.accepted (calls ++ [.receive now m]) = beat :: Link.accepted calls →
      (A.course (calls ++ [.receive now m]) { timeout } s).1.connected = true := by
  refine ⟨fun now hnow => ?_, fun now m beat hm hbeat => ?_⟩
  · have hcheck : ∀ c ∈ calls ++ [Link.Call.check now], c.WellFormed := by
      simpa [Link.Call.WellFormed, or_imp, forall_and] using hw
    have ht := Link.run_tracks timeout hw
    rw [course_link, (Link.run_tracks timeout hcheck).connected, Watch.ofCalls_concat, Watch.next_check,
      ← Watch.ofCalls_beats timeout calls]
    simp only [Bool.and_eq_true, Bool.not_eq_true']
    constructor
    · rintro ⟨hc, ho⟩
      -- a link that is connected has a last heartbeat, so that there is one to be recent
      obtain ⟨beat, hhead⟩ := (Link.run_grounded (.new timeout) calls).head_of_tracks ht hc
      rw [← Bool.not_eq_true, Watch.overdue_iff hhead, not_lt] at ho
      exact ⟨beat, hhead, ho⟩
    · rintro ⟨beat, hhead, hle⟩
      rw [← Bool.not_eq_true (Watch.overdue ..), Watch.overdue_iff hhead]
      refine ⟨?_, not_lt_of_ge hle⟩
      by_contra hc
      exact absurd (Watch.late_of_lost hnow (by simpa using hc) hhead) (not_lt_of_ge hle)
  · have hreceive : ∀ c ∈ calls ++ [Link.Call.receive now m], c.WellFormed := by
      simpa [or_imp, forall_and, hm] using hw
    rw [course_link, (Link.run_tracks timeout hreceive).connected, Watch.ofCalls_concat]
    exact Watch.connected_of_beat timeout (Watch.beat?_of_accepted timeout hbeat)

/-- Ten seconds after its second heartbeat a vehicle that was lost in between is connected. -/
theorem connected_iff_recent_regained :
    let A : Audience Rat Unit := fun _ _ => ⟨[], []⟩
    let beat : WireMessage := ⟨"HEARTBEAT", 1, [("autopilot", .int 3), ("type", .int 2)]⟩
    let calls : List (Link.Call Rat) :=
      [.receive 0 beat, .check (21 / 2), .receive 11 beat, .check 12]
    (∀ c ∈ calls, c.WellFormed) ∧ (∀ c ∈ calls, c.now ≤ 21) ∧
      (Link.accepted calls).head? = some ⟨11, 1, 3⟩ ∧
      (A.course (calls ++ [.check 21]) { timeout := 10 } ()).1.connected = true := by
  intro A beat calls
  have hbeat : ∀ now, (Link.Call.receive (now : Rat) beat).WellFormed :=
    fun _ _ => ⟨⟨3, rfl⟩, 2, rfl⟩
  have hw : ∀ c ∈ calls, c.WellFormed := by
    simpa [calls, Link.Call.WellFormed] using hbeat
  have hnow : ∀ c ∈ calls, c.now ≤ 21 := by
    simp only [calls, List.forall_mem_cons, Link.Call.now]
    norm_num
  have hlast : (Link.accepted calls).head? = some ⟨11, 1, 3⟩ := by rfl
  refine ⟨hw, hnow, hlast, ((connected_iff_recent A 10 () hw).1 21 hnow).2 ⟨_, hlast, ?_⟩⟩
  norm_num

end Audience
end InertialRelay
