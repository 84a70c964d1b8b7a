import InertialRelay.Proofs.MalformedMessages
import InertialRelay.Proofs.TimeoutLaw

/-!
# What gets past a link

`Passed` says which typed messages there are in what is received: those that carry all the fields of their
kind and come from the system that the link is locked to at the time. `Link.outcome_filters`: a call on a link
tells of these and of no other messages, and locks the link as `WireMessage.lock` says.
-/

namespace InertialRelay

theorem Kind.ofName?_eq_some {name : String} {k : Kind} : Kind.ofName? name = some k ↔ k.name = name := by
  constructor
  · intro h
    have := List.find?_some h
    exact beq_iff_eq.1 this
  · rintro rfl
    exact Kind.ofName?_name k

theorem Message.lookupIn_eq_ok {fields : List (String × Num)} {name : String} {v : Num} :
    Message.lookupIn fields name = .ok v ↔ fields.lookup name = some v := by
  unfold Message.lookupIn
  split <;> simp [*]

namespace WireMessage
variable {w : WireMessage} {m m' : Message} {target : Option Int}

/-- The type and the fields are those of a typed message. There may be more fields. -/
def Carries (w : WireMessage) (m : Message) : Prop :=
  w.type = m.kind.name ∧ ∀ field ∈ m.fields, w.fields.lookup field.1 = some field.2

theorem decode_eq_some : w.decode.1 = some m ↔ w.Carries m := by
  simp only [Carries, ← Message.lookupIn_eq_ok]
  constructor
  · intro h
    cases hk : Kind.ofName? w.type with
    | none => simp [decode, hk] at h
    | some k =>
      cases hm : Message.ofFields? k (Message.lookupIn w.fields) with
      | error name => simp [decode, hk, hm] at h
      | ok m₁ =>
        obtain rfl : m₁ = m := by simpa [decode, hk, hm] using h
        obtain ⟨hkind, hget⟩ := Message.get_of_ofFields? hm
        exact ⟨by rw [hkind, Kind.ofName?_eq_some.1 hk], hget⟩
  · rintro ⟨ht, hget⟩
    have hk : Kind.ofName? w.type = some m.kind := Kind.ofName?_eq_some.2 ht.symm
    simp [decode, hk, Message.ofFields?_of_get hget]

/-- A message gets past a link that is locked to `target`, or to no system yet, as a typed one. -/
structure Through (target : Option Int) (w : WireMessage) (m : Message) : Prop where
  notBad : w.type ≠ "BAD_DATA"
  notHeartbeat : w.type ≠ "HEARTBEAT"
  carries : w.Carries m
  system : ∀ system ∈ target, w.system = system

theorem Through.det (h : w.Through target m) (h' : w.Through target m') : m = m' :=
  Option.some.inj ((decode_eq_some.2 h.carries).symm.trans (decode_eq_some.2 h'.carries))

/-- The system that a link is locked to after a message. The first heartbeat of a vehicle locks it, and
autopilot 8 is that of no vehicle. -/
def lock (target : Option Int) (w : WireMessage) : Option Int :=
  match target with
  | some system => some system
  | none =>
    if w.type = "HEARTBEAT" then
      match Link.code w "autopilot" with
      | .ok autopilot => if autopilot = 8 then none else some w.system
      | .error _ => none
    else none

theorem lock_of_ne (h : w.type ≠ "HEARTBEAT") (target : Option Int) : lock target w = target := by
  cases target <;> simp [lock, h]

end WireMessage

/-- The typed messages that get past the link when messages come one after the other. -/
inductive Passed : Option Int → List WireMessage → List Message → Prop
  | nil (target : Option Int) : Passed target [] []
  | through {target : Option Int} {w : WireMessage} {m : Message} {ws : List WireMessage} {ms : List Message}
      (h : w.Through target m) (rest : Passed (w.lock target) ws ms) : Passed target (w :: ws) (m :: ms)
  | kept {target : Option Int} {w : WireMessage} {ws : List WireMessage} {ms : List Message}
      (h : ∀ m, ¬ w.Through target m) (rest : Passed (w.lock target) ws ms) : Passed target (w :: ws) ms

namespace Passed
variable {target : Option Int} {ws ws' : List WireMessage} {ms ms' : List Message}

theorem append (h : Passed target ws ms) (h' : Passed (ws.foldl WireMessage.lock target) ws' ms') :
    Passed target (ws ++ ws') (ms ++ ms') := by
  induction h with
  | nil target => exact h'
  | through h _ ih => exact .through h (ih h')
  | kept h _ ih => exact .kept h (ih h')

theorem det (h : Passed target ws ms) (h' : Passed target ws ms') : ms = ms' := by
  induction h generalizing ms' with
  | nil target =>
    cases h'
    rfl
  | through h _ ih =>
    cases h' with
    | through h' rest => rw [h.det h', ih rest]
    | kept h' rest => exact absurd h (h' _)
  | kept h _ ih =>
    cases h' with
    | through h' rest => exact absurd h' (h _)
    | kept h' rest => exact ih rest

end Passed

def Notice.message? : Notice → Option Message
  | .message m => some m
  | .connection _ => none

namespace Link
variable {τ : Type} {l : Link τ} {now : τ} {w : WireMessage}

theorem admits_iff {system : Int} : l.admits system = true ↔ ∀ target ∈ l.target, system = target := by
  unfold admits
  split <;> simp_all

def Call.received : Call τ → List WireMessage
  | .receive _ w => [w]
  | .check _ => []

/-- An outcome without a fault that tells of what gets past the link among what was received. -/
structure Filters (l : Link τ) (now : τ) (ws : List WireMessage) (o : Outcome τ) : Prop where
  passed : ∃ notice, o.notice = .ok notice ∧ Passed l.target ws (notice.bind Notice.message?).toList
  target : o.link.target = ws.foldl WireMessage.lock l.target
  clock : ∀ t ∈ o.link.lastHeartbeat, t = now ∨ t ∈ l.lastHeartbeat

theorem Filters.kept (hno : ∀ m, ¬ w.Through l.target m) (hlock : w.lock l.target = l.target) :
    l.Filters now [w] { link := l } :=
  ⟨⟨none, rfl, .kept hno (.nil _)⟩, hlock.symm, fun _ ht => .inr ht⟩

theorem beat_filters {autopilot : Int} (vehicleType : Int) (hbeat : w.type = "HEARTBEAT")
    (hlock : w.lock l.target = some w.system) :
    l.Filters now [w] (l.beat now w.system autopilot vehicleType) := by
  have hno : ∀ m, ¬ w.Through l.target m := fun m h => h.notHeartbeat hbeat
  have hclock : ∀ t ∈ some now, t = now ∨ t ∈ l.lastHeartbeat := fun t ht => .inl (Option.some.inj ht).symm
  unfold beat
  split
  · exact ⟨⟨none, rfl, .kept hno (.nil _)⟩, hlock.symm, hclock⟩
  · exact ⟨⟨some (.connection true), rfl, .kept hno (.nil _)⟩, hlock.symm, hclock⟩

theorem heartbeat_filters (hbeat : w.type = "HEARTBEAT") (hw : (Call.receive now w).WellFormed) :
    l.Filters now [w] (l.heartbeat now w) := by
  obtain ⟨⟨autopilot, ha⟩, vehicleType, hv⟩ := hw hbeat
  simp only [heartbeat, ha, hv]
  split
  next hp =>
    refine .kept (fun m h => h.notHeartbeat hbeat) ?_
    cases htarget : l.target with
    | some system => rfl
    | none =>
      -- a link that is not locked admits anyone, so it is the autopilot that is none of a vehicle
      have h8 : autopilot = invalidAutopilot := by simpa [admits, htarget] using hp
      simp [WireMessage.lock, hbeat, ha, h8, invalidAutopilot]
  next hp =>
    simp only [Bool.or_eq_true, decide_eq_true_eq, Bool.not_eq_true', not_or, Bool.not_eq_false] at hp
    obtain ⟨h8, hs⟩ := hp
    refine beat_filters vehicleType hbeat ?_
    cases htarget : l.target with
    | some system => rw [WireMessage.lock, admits_iff.1 hs system htarget]
    | none => simp [WireMessage.lock, hbeat, ha, show autopilot ≠ 8 from h8]

theorem receive_filters (hw : (Call.receive now w).WellFormed) : l.Filters now [w] (l.receive now w) := by
  unfold receive
  split
  next hbad =>
    have hne : w.type ≠ "HEARTBEAT" := by simp [hbad]
    exact .kept (fun m h => h.notBad hbad) (WireMessage.lock_of_ne hne _)
  split
  next hbeat => exact heartbeat_filters hbeat hw
  next hbad hbeat =>
    have hlock := WireMessage.lock_of_ne hbeat l.target
    split
    next hs =>
      refine .kept (fun m h => ?_) hlock
      simp [admits_iff.2 h.system] at hs
    next hs =>
      have hs : l.admits w.system = true := by simpa using hs
      refine ⟨⟨_, rfl, ?_⟩, hlock.symm, fun t ht => .inr ht⟩
      cases hd : w.decode.1 with
      | none =>
        refine .kept (fun m h => ?_) (.nil _)
        rw [WireMessage.decode_eq_some.2 h.carries] at hd
        cases hd
      | some m => exact .through ⟨hbad, hbeat, WireMessage.decode_eq_some.1 hd, admits_iff.1 hs⟩ (.nil _)

theorem outcome_filters [Timescale τ] {c : Call τ} (hw : c.WellFormed)
    (hclock : ∀ t ∈ l.lastHeartbeat, ∃ elapsed, Timescale.between t c.now = .ok elapsed) :
    l.Filters c.now c.received (l.outcome c) := by
  cases c with
  | receive now w => exact receive_filters hw
  | check now =>
    have hkeep : ∀ t ∈ l.lastHeartbeat, t = now ∨ t ∈ l.lastHeartbeat := fun t ht => .inr ht
    simp only [outcome, checkTimeout]
    split
    next last hc hlast =>
      obtain ⟨elapsed, he⟩ := hclock last hlast
      simp only [Call.now] at he
      simp only [he]
      split
      · exact ⟨⟨some (.connection false), rfl, .nil _⟩, rfl, hkeep⟩
      · exact ⟨⟨none, rfl, .nil _⟩, rfl, hkeep⟩
    next => exact ⟨⟨none, rfl, .nil _⟩, rfl, hkeep⟩

end Link

end InertialRelay
