import InertialRelay.Proofs.LinkChanges

/-!
# What listeners are told of the connection

`Roster.told_alternating`: whatever messages come and whatever the clock reads, every listener is told
true, false, true and so on, and the connection is what it was told last. It takes listeners that do not
fail, because the first one that does keeps the others from the news.
-/

namespace InertialRelay

/-- True, false, true and so on, `n` values. -/
def alternating (n : Nat) : List Bool := (List.range n).map (· % 2 == 0)

theorem alternating_succ (n : Nat) : alternating (n + 1) = alternating n ++ [n % 2 == 0] := by
  simp [alternating, List.range_succ]

/-- The last of the values is false where there is none. -/
theorem getLast?_alternating (n : Nat) : (alternating n).getLast?.getD false = (n % 2 == 1) := by
  cases n with
  | zero => rfl
  | succ n =>
    rw [alternating_succ, List.getLast?_concat, Option.getD_some, Bool.eq_iff_iff, beq_iff_eq, beq_iff_eq]
    omega

/-- What someone who is told something hears of the connection, as the listener at a given place. -/
def Heard.connection? (listener : Nat) : Heard → Option Bool
  | .connection i connected => if i = listener then some connected else none
  | .message .. => none

/-- What a listener was told of the connection, in order. -/
def told (listener : Nat) (heard : List Heard) : List Bool := heard.filterMap (Heard.connection? listener)

theorem told_append (i : Nat) (heard heard' : List Heard) :
    told i (heard ++ heard') = told i heard ++ told i heard' := List.filterMap_append

theorem told_zipIdx {α : Type} (listeners : List α) (connected : Bool) (i k : Nat) :
    told i ((listeners.zipIdx k).map fun p => .connection p.2 connected) =
      if k ≤ i ∧ i < k + listeners.length then [connected] else [] := by
  induction listeners generalizing k with
  | nil =>
    rw [if_neg (by simp only [List.length_nil]; omega)]
    rfl
  | cons f listeners ih =>
    rw [List.zipIdx_cons, List.map_cons, ← List.singleton_append, told_append, ih, List.length_cons]
    by_cases hk : k = i
    · subst hk
      rw [if_neg (by omega), if_pos (by omega)]
      simp [told, Heard.connection?]
    · have hfirst : told i [.connection k connected] = [] := by simp [told, Heard.connection?, hk]
      rw [hfirst, List.nil_append]
      exact if_congr (by omega) rfl rfl

namespace Roster
variable {τ σ : Type} {R : Roster τ σ}

theorem told_hears_message (R : Roster τ σ) (m : Message) (i : Nat) : told i (R.hears (.message m)) = [] := by
  simp [told, hears, Heard.connection?]

theorem told_hears_connection {i : Nat} (hi : i < R.listeners.length) (connected : Bool) :
    told i (R.hears (.connection connected)) = [connected] := by
  rw [hears, told_zipIdx, if_pos (by omega)]

def Quiet (R : Roster τ σ) : Prop :=
  ∀ f ∈ R.listeners, ∀ l now connected s, (f l now connected s).fault = none

theorem announce_fault {l : Link τ} {now : τ} {connected : Bool} {listeners : List (Subscriber τ σ Bool)}
    (hq : ∀ f ∈ listeners, ∀ s, (f l now connected s).fault = none) (s : σ) :
    (Subscribers.announce connected (listeners.map fun f => f l now) s).fault = none := by
  induction listeners generalizing s with
  | nil => rfl
  | cons f listeners ih =>
    have ih := ih fun g hg => hq g (List.mem_cons_of_mem f hg)
    simp only [Subscribers.announce, List.map_cons, Reaction.untilFault] at ih ⊢
    rw [hq f List.mem_cons_self s]
    exact ih _

theorem Quiet.tell (hq : R.Quiet) (l : Link τ) (now : τ) (notice : Notice) (s : σ) :
    ((R.audience l now).tell notice s).fault = none := by
  cases notice with
  | connection connected => exact announce_fault (fun f hf => hq f hf l now connected) s
  | message m =>
    show (Subscribers.deliver m (R.handlers.map fun f => f l now) s).fault = none
    cases R.handlers <;> rfl

/-- What a call notices is what is heard of it, also where the call has a fault. -/
theorem Quiet.heard [Timescale τ] (hq : R.Quiet) (c : Link.Call τ) (l : Link τ) (s : σ) (t : List Heard) :
    (R.recorded.audience.call c l (s, t)).state.2 = t ++ match (l.outcome c).notice with
      | .ok (some notice) => R.hears notice
      | .ok none | .error _ => [] := by
  rcases hn : (l.outcome c).notice with f | - | notice
  · simp [Audience.call, Audience.relay, hn]
  · simp [Audience.call, Audience.relay, hn]
  · have hf : (R.audience.call c l s).fault = none := by
      simp only [Audience.call, Audience.relay, hn]
      exact hq.tell _ _ notice s
    obtain ⟨heard, he, hh⟩ := R.recorded_call c l s t
    obtain ⟨notice', hn', rfl⟩ := hh hf
    obtain rfl : some notice = notice' := Except.ok.inj (hn.symm.trans hn')
    rw [he]
    rfl

end Roster

namespace Roster
variable {τ σ : Type} [Timescale τ] {R : Roster τ σ}

/-- A listener that was told so much is up to date with the link. -/
def Informed (R : Roster τ σ) (l : Link τ) (heard : List Heard) : Prop :=
  ∀ i < R.listeners.length, ∃ n, told i heard = alternating n ∧ l.connected = (n % 2 == 1)

theorem Informed.call (hq : R.Quiet) {l : Link τ} {t : List Heard} (h : R.Informed l t) (c : Link.Call τ)
    (s : σ) :
    let r := R.recorded.audience.call c l (s, t)
    R.Informed r.link r.state.2 := by
  intro r i hi
  obtain ⟨n, hn, hc⟩ := h i hi
  have hlink : r.link = (l.outcome c).link := Audience.relay_link _ _ _
  rw [hlink, hq.heard, told_append, hn]
  rcases (l.outcome_change c).connected with ⟨hkeep, hno⟩ | ⟨hturn, hyes⟩
  · refine ⟨n, ?_, hkeep.trans hc⟩
    rcases hnotice : (l.outcome c).notice with f | - | notice
    · exact List.append_nil _
    · exact List.append_nil _
    · cases notice with
      | message m => rw [told_hears_message, List.append_nil]
      | connection connected => exact absurd hnotice (hno connected)
  -- the next value to come is the connection after the call, which is the other one
  · have hflip : (!l.connected) = (n % 2 == 0) := by
      rw [hc, Bool.eq_iff_iff, Bool.not_eq_true', beq_eq_false_iff_ne, beq_iff_eq]
      omega
    refine ⟨n + 1, ?_, ?_⟩
    · rw [hyes, told_hears_connection hi, alternating_succ, hflip]
    · rw [hturn, hflip, Bool.eq_iff_iff, beq_iff_eq, beq_iff_eq]
      omega

theorem Informed.course (hq : R.Quiet) {l : Link τ} {t : List Heard} (h : R.Informed l t) (s : σ)
    (calls : List (Link.Call τ)) :
    let x := R.recorded.audience.course calls l (s, t)
    R.Informed x.1 x.2.2 := by
  induction calls generalizing l t s with
  | nil => exact h
  | cons c calls ih => exact ih (h.call hq c s) _

/-- After any calls on a new link, those that raised a fault included, every listener of those that were
there from the start and do not fail was told true, false, true and so on, and the last of it is whether
the vehicle is connected. Whatever the listeners do, a connected vehicle is known by its system, its
autopilot, its type and the time of its last heartbeat, and no autopilot is the invalid one. -/
theorem told_alternating (R : Roster τ σ) (timeout : τ) (s : σ) (calls : List (Link.Call τ)) :
    let x := R.recorded.audience.course calls { timeout } (s, [])
    (R.Quiet → ∀ i < R.listeners.length,
      (∃ n, told i x.2.2 = alternating n) ∧ x.1.connected = (told i x.2.2).getLast?.getD false) ∧
    x.1.Grounded := by
  intro x
  refine ⟨fun hq i hi => ?_, ?_⟩
  · have hnew : R.Informed { timeout } [] := fun _ _ => ⟨0, rfl, rfl⟩
    obtain ⟨n, hn, hc⟩ := hnew.course hq s calls i hi
    exact ⟨⟨n, hn⟩, by rw [hn, getLast?_alternating, hc]⟩
  · show (R.recorded.audience.course calls { timeout } (s, [])).1.Grounded
    rw [Audience.course_link]
    exact Link.run_grounded (.new timeout) calls

theorem told_alternating_reconnected :
    let R : Roster Num Unit := ⟨[], [fun _ _ _ s => { state := s }]⟩
    let beat : WireMessage := ⟨"HEARTBEAT", 1, [("autopilot", .int 3), ("type", .int 2)]⟩
    let halfway : WireMessage := ⟨"HEARTBEAT", 1, [("autopilot", .int 4)]⟩
    let calls : List (Link.Call Num) :=
      [.receive (.int 0) beat, .receive (.int 12) halfway, .check (.int 12), .receive (.int 5) beat]
    let x := R.recorded.audience.course calls { timeout := .real 10 } ((), [])
    R.Quiet ∧ 0 < R.listeners.length ∧ told 0 x.2.2 = [true, false, true] ∧
      (∃ n, told 0 x.2.2 = alternating n) ∧ x.1.connected = (told 0 x.2.2).getLast?.getD false := by
  intro R beat halfway calls x
  have hq : R.Quiet := by
    intro f hf l now connected s
    obtain rfl := List.mem_singleton.1 hf
    rfl
  exact ⟨hq, by decide, by decide +kernel, (told_alternating R _ () calls).1 hq 0 (by decide)⟩

end Roster
end InertialRelay
