import InertialRelay.Proofs.Roster

/-!
# What a call can do to a link

`Link.Change` lists what can come of a call on a link, and `Link.outcome_change` says that nothing else
does. A heartbeat may break off halfway: then the system and the autopilot are stored and the rest is as
before. `Link.Grounded` holds of a link at any time all the same.

`Audience.course` lets a link take calls one after the other whatever faults they have, those of the
subscribers included. The link goes through the same states whoever is told (`Audience.course_link`).
-/

namespace InertialRelay

namespace Link
variable {τ : Type} {l : Link τ} {c : Call τ} {o : Outcome τ}

/-- What can come of a call. -/
inductive Change (l : Link τ) : Call τ → Outcome τ → Prop
  | kept (c : Call τ) (log : Log) (m? : Option Message) :
      Change l c { link := l, log, notice := .ok (m?.map .message) }
  | failed (c : Call τ) (f : Fault) : Change l c { link := l, notice := .error f }
  | halfway {m : WireMessage} {autopilot : Int} (now : τ) (f : Fault)
      (ha : l.admits m.system = true) (h8 : autopilot ≠ invalidAutopilot) :
      Change l (.receive now m)
        { link := { l with target := some m.system, autopilot := some autopilot }
          notice := .error f }
  | beat {m : WireMessage} {autopilot : Int} (now : τ) (vehicleType : Int)
      (ha : l.admits m.system = true) (h8 : autopilot ≠ invalidAutopilot) :
      Change l (.receive now m) (l.beat now m.system autopilot vehicleType)
  | lost (now : τ) (hc : l.connected = true) : Change l (.check now) l.lose

theorem heartbeat_change (l : Link τ) (now : τ) (m : WireMessage) :
    l.Change (.receive now m) (l.heartbeat now m) := by
  unfold heartbeat
  cases code m "autopilot" with
  | error f => exact .failed _ f
  | ok autopilot =>
    simp only
    split
    · exact .kept _ [] none
    next hr =>
      simp only [Bool.or_eq_true, decide_eq_true_eq, Bool.not_eq_true', not_or,
        Bool.not_eq_false] at hr
      obtain ⟨h8, ha⟩ := hr
      cases code m "type" with
      | error f => exact .halfway now f ha h8
      | ok vehicleType => exact .beat now vehicleType ha h8

theorem receive_change (l : Link τ) (now : τ) (m : WireMessage) :
    l.Change (.receive now m) (l.receive now m) := by
  unfold receive
  split
  · exact .kept _ [] none
  split
  · exact l.heartbeat_change now m
  split
  · exact .kept _ [] none
  · exact .kept _ m.decode.2 m.decode.1

theorem outcome_change [Timescale τ] (l : Link τ) (c : Call τ) : l.Change c (l.outcome c) := by
  cases c with
  | receive now m => exact l.receive_change now m
  | check now =>
    rcases l.checkTimeout_cases now with ⟨hc, -, he⟩ | ⟨-, he⟩ | ⟨f, he⟩ <;> rw [outcome, he]
    · exact .lost now hc
    · exact .kept _ [] none
    · exact .failed _ f

theorem Change.target {system : Int} (h : l.Change c o) (ht : l.target = some system) :
    o.link.target = some system := by
  have hs : ∀ m : WireMessage, l.admits m.system = true → m.system = system := by
    intro m ha
    simpa [admits, ht] using ha
  cases h with
  | kept | failed => exact ht
  | halfway now f ha => exact congrArg some (hs _ ha)
  | beat now vehicleType ha =>
    unfold Link.beat
    split <;> exact congrArg some (hs _ ha)
  | lost => exact ht

/-- A call either leaves the connection as it is and tells nobody of one, or turns it over and tells so. -/
theorem Change.connected (h : l.Change c o) :
    (o.link.connected = l.connected ∧ ∀ connected, o.notice ≠ .ok (some (.connection connected))) ∨
    (o.link.connected = (!l.connected) ∧ o.notice = .ok (some (.connection !l.connected))) := by
  cases h with
  | kept c log m? => cases m? <;> simp
  | failed | halfway => simp
  | beat => cases hc : l.connected <;> simp [Link.beat, hc]
  | lost now hc => simp [lose, hc]

/-- All is known of a vehicle that is connected, and the autopilot is that of a vehicle. -/
structure Grounded (l : Link τ) : Prop where
  target : l.connected = true → l.target.isSome
  autopilot : l.connected = true → l.autopilot.isSome
  vehicleType : l.connected = true → l.vehicleType.isSome
  lastHeartbeat : l.connected = true → l.lastHeartbeat.isSome
  valid : l.autopilot ≠ some invalidAutopilot

theorem Grounded.new (timeout : τ) : ({ timeout } : Link τ).Grounded := by
  constructor <;> simp

theorem Change.grounded (h : l.Change c o) (hl : l.Grounded) : o.link.Grounded := by
  cases h with
  | kept | failed => exact hl
  | halfway now f ha h8 =>
    -- what a broken-off heartbeat does not store was stored by the one that connected the vehicle
    exact ⟨fun _ => rfl, fun _ => rfl, hl.vehicleType, hl.lastHeartbeat, by simpa using h8⟩
  | beat now vehicleType ha h8 =>
    unfold Link.beat
    split <;> exact ⟨fun _ => rfl, fun _ => rfl, fun _ => rfl, fun _ => rfl, by simpa using h8⟩
  | lost now hc => exact ⟨nofun, nofun, nofun, nofun, hl.valid⟩

/-- A connected vehicle sent a heartbeat that was accepted. -/
theorem Grounded.head_of_tracks {w : Watch τ} (hl : l.Grounded) (h : l.Tracks w) (hc : w.connected = true) :
    ∃ beat, w.beats.head? = some beat := by
  have hlast := hl.lastHeartbeat (h.connected.trans hc)
  rwa [h.lastHeartbeat, Option.isSome_map, Option.isSome_iff_exists] at hlast

def run [Timescale τ] (l : Link τ) (calls : List (Call τ)) : Link τ :=
  calls.foldl (fun l c => (l.outcome c).link) l

theorem run_grounded [Timescale τ] (hl : l.Grounded) (calls : List (Call τ)) : (l.run calls).Grounded := by
  induction calls generalizing l with
  | nil => exact hl
  | cons c calls ih => exact ih ((l.outcome_change c).grounded hl)

end Link

namespace Audience
variable {τ σ : Type} [Timescale τ]

/-- A link and its subscribers after calls. A fault ends its own call only. -/
def course (A : Audience τ σ) (calls : List (Link.Call τ)) (l : Link τ) (s : σ) : Link τ × σ :=
  calls.foldl (fun x c => ((A.call c x.1 x.2).link, (A.call c x.1 x.2).state)) (l, s)

theorem course_link (A : Audience τ σ) (calls : List (Link.Call τ)) (l : Link τ) (s : σ) :
    (A.course calls l s).1 = l.run calls := by
  induction calls generalizing l s with
  | nil => rfl
  | cons c calls ih =>
    have hc : (A.call c l s).link = (l.outcome c).link := relay_link _ _ _
    rw [Link.run, List.foldl_cons, ← hc]
    exact ih _ _

end Audience
end InertialRelay
