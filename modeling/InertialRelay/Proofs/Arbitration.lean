import InertialRelay.Arbiter
import Mathlib.Data.Finset.Insert

/-!
# The arbiter in closed form

`Arbiter.run_closed_form`: after any calls the arbiter is a function of the set of kinds that were
offered since the last reset. The order of the messages, their repetitions and the answers they got
leave no other trace.
-/

namespace InertialRelay

/-- The best source of the attitude among the kinds that were seen. -/
def AttitudeSource.best (seen : Finset Kind) : AttitudeSource :=
  if .attitudeQuaternion ∈ seen then .quaternion
  else if .attitude ∈ seen then .euler
  else .unseen

/-- The best inertial source among the kinds that were seen. -/
def InertialSource.best (seen : Finset Kind) : InertialSource :=
  if .highresImu ∈ seen then .highres
  else if .scaledImu ∈ seen then .scaled
  else if .rawImu ∈ seen then .raw
  else .unseen

/-- The inertial kinds by their fidelity. -/
inductive Kind.Outranks : Kind → Kind → Prop
  | highres_scaled : Outranks .highresImu .scaledImu
  | highres_raw : Outranks .highresImu .rawImu
  | scaled_raw : Outranks .scaledImu .rawImu

theorem Kind.exists_outranks_iff {seen : Finset Kind} {k : Kind} :
    (∃ l ∈ seen, l.Outranks k) ↔
      (.highresImu ∈ seen ∧ (k = .scaledImu ∨ k = .rawImu)) ∨ (.scaledImu ∈ seen ∧ k = .rawImu) := by
  constructor
  · rintro ⟨l, hl, h⟩
    cases h with
    | highres_scaled => exact .inl ⟨hl, .inl rfl⟩
    | highres_raw => exact .inl ⟨hl, .inr rfl⟩
    | scaled_raw => exact .inr ⟨hl, rfl⟩
  · rintro (⟨hl, rfl | rfl⟩ | ⟨hl, rfl⟩)
    exacts [⟨_, hl, .highres_scaled⟩, ⟨_, hl, .highres_raw⟩, ⟨_, hl, .scaled_raw⟩]

namespace AttitudeSource
variable {seen : Finset Kind} {k : Kind} {offered : AttitudeSource}

theorem rank_lt_best (h : ofKind? k = some offered) :
    offered.rank < (best seen).rank ↔ k = .attitude ∧ .attitudeQuaternion ∈ seen := by
  cases k <;> simp only [ofKind?, reduceCtorEq, Option.some.injEq] at h <;> subst h
  · by_cases hq : Kind.attitudeQuaternion ∈ seen
    · simp [best, hq, rank]
    · by_cases he : Kind.attitude ∈ seen <;> simp [best, hq, he, rank]
  · cases best seen <;> simp [rank]

/-- A message of the class leads to what is best among the kinds with its own. -/
theorem meet_best_fst (h : ofKind? k = some offered) :
    ((best seen).meet offered).1 = best (insert k seen) := by
  unfold meet
  split
  next hlt =>
    obtain ⟨rfl, hq⟩ := (rank_lt_best h).1 hlt
    simp [best, hq]
  next hlt =>
    have hq := mt (rank_lt_best h).2 hlt
    cases k <;> simp only [ofKind?, reduceCtorEq, Option.some.injEq] at h <;> subst h
    · simp only [true_and] at hq
      simp [best, hq]
    · simp [best]

theorem meet_best_snd (h : ofKind? k = some offered) :
    ((best seen).meet offered).2 = true ↔ ¬ (k = .attitude ∧ .attitudeQuaternion ∈ seen) := by
  rw [← rank_lt_best h, meet]
  split <;> simp_all

theorem best_insert (h : ofKind? k = none) : best (insert k seen) = best seen := by
  cases k <;> simp [ofKind?] at h <;> simp [best]

/-- A kind has a source of one class at most. -/
theorem inertial_ofKind? (h : ofKind? k = some offered) : InertialSource.ofKind? k = none := by
  cases k <;> simp [ofKind?] at h <;> rfl

end AttitudeSource

namespace InertialSource
variable {seen : Finset Kind} {k : Kind} {offered : InertialSource}

theorem rank_lt_best (h : ofKind? k = some offered) :
    offered.rank < (best seen).rank ↔ ∃ l ∈ seen, l.Outranks k := by
  rw [Kind.exists_outranks_iff]
  cases k <;> simp only [ofKind?, reduceCtorEq, Option.some.injEq] at h <;> subst h
  · cases best seen <;> simp [rank]
  all_goals
    by_cases hh : Kind.highresImu ∈ seen
    · simp [best, hh, rank]
    · by_cases hs : Kind.scaledImu ∈ seen
      · simp [best, hh, hs, rank]
      · by_cases hw : Kind.rawImu ∈ seen <;> simp [best, hh, hs, hw, rank]

/-- A message of the class leads to what is best among the kinds with its own. -/
theorem meet_best_fst (h : ofKind? k = some offered) :
    ((best seen).meet offered).1 = best (insert k seen) := by
  have hlt := (@rank_lt_best seen k offered h).trans Kind.exists_outranks_iff
  unfold meet
  split
  next hr =>
    rcases hlt.1 hr with ⟨hh, rfl | rfl⟩ | ⟨hs, rfl⟩
    · simp [best, hh]
    · simp [best, hh]
    · simp [best, hs]
  next hr =>
    have hn := mt hlt.2 hr
    cases k <;> simp only [ofKind?, reduceCtorEq, Option.some.injEq] at h <;> subst h
    · simp [best]
    · simp only [or_true, and_true, not_or] at hn
      simp [best, hn]
    · simp only [and_true, reduceCtorEq, and_false, or_false] at hn
      simp [best, hn]

theorem meet_best_snd (h : ofKind? k = some offered) :
    ((best seen).meet offered).2 = true ↔ ∀ l ∈ seen, ¬ l.Outranks k := by
  have hlt := not_congr (@rank_lt_best seen k offered h)
  rw [not_exists] at hlt
  simp only [not_and] at hlt
  rw [← hlt, meet]
  split <;> simp_all

theorem best_insert (h : ofKind? k = none) : best (insert k seen) = best seen := by
  cases k <;> simp [ofKind?] at h <;> simp [best]

theorem best_eq_highres : best seen = highres ↔ .highresImu ∈ seen := by
  unfold best
  split_ifs <;> simp_all

end InertialSource

namespace Arbiter

/-- What an owner asks of its arbiter. -/
inductive Call where
  | accept (k : Kind)
  | reset

/-- The arbiter after a call. -/
def after (a : Arbiter) : Call → Arbiter
  | .accept k => (a.accept k).arbiter
  | .reset => a.reset

/-- A new arbiter after calls. -/
def run (calls : List Call) : Arbiter := calls.foldl after {}

/-- The kinds offered since the last reset. -/
def offered (calls : List Call) : Finset Kind :=
  calls.foldl (fun seen c => match c with
    | .accept k => insert k seen
    | .reset => ∅) ∅

/-- The arbiter that knows of the kinds that were seen and of nothing else. -/
def ofSeen (seen : Finset Kind) : Arbiter := ⟨.best seen, .best seen⟩

theorem run_append (calls : List Call) (c : Call) : run (calls ++ [c]) = (run calls).after c := by
  simp [run]

theorem offered_append_accept (calls : List Call) (k : Kind) :
    offered (calls ++ [.accept k]) = insert k (offered calls) := by
  simp [offered]

theorem offered_append_reset (calls : List Call) : offered (calls ++ [.reset]) = ∅ := by
  simp [offered]

theorem accept_ofSeen (seen : Finset Kind) (k : Kind) :
    ((ofSeen seen).accept k).arbiter = ofSeen (insert k seen) := by
  unfold accept
  split
  next s _ ha =>
    have hi := AttitudeSource.inertial_ofKind? ha
    simp [ofSeen, AttitudeSource.meet_best_fst ha, InertialSource.best_insert hi]
  next s ha hi =>
    simp [ofSeen, AttitudeSource.best_insert ha, InertialSource.meet_best_fst hi]
  next ha hi =>
    simp [ofSeen, AttitudeSource.best_insert ha, InertialSource.best_insert hi]

/-- Which message is accepted beside the kinds that were seen. -/
theorem accepted_ofSeen (seen : Finset Kind) (k : Kind) :
    ((ofSeen seen).accept k).accepted = true ↔
      k = .attitudeQuaternion ∨ (k = .attitude ∧ .attitudeQuaternion ∉ seen) ∨
        (k.quantity = .inertialRaw ∧ ∀ l ∈ seen, ¬ l.Outranks k) ∨
        (k = .scaledPressure ∧ .highresImu ∉ seen) := by
  unfold accept
  split
  next s _ ha =>
    refine (AttitudeSource.meet_best_snd ha).trans ?_
    cases k <;> simp_all [AttitudeSource.ofKind?, Kind.quantity]
  next s ha hi =>
    refine (InertialSource.meet_best_snd hi).trans ?_
    cases k <;> simp_all [InertialSource.ofKind?, Kind.quantity]
  next ha hi =>
    have hk : k = .scaledPressure := by
      cases k <;> simp_all [AttitudeSource.ofKind?, InertialSource.ofKind?]
    subst hk
    simp [ofSeen, InertialSource.acceptsPressure, InertialSource.best_eq_highres, Kind.quantity]

/-- A message that is refused leaves no trace, and one of pressure never does. -/
theorem accept_unchanged {a : Arbiter} {k : Kind}
    (h : (a.accept k).accepted = false ∨ k = .scaledPressure) : (a.accept k).arbiter = a := by
  rcases h with h | rfl
  · unfold accept at h ⊢
    split at h
    · simp only [AttitudeSource.meet] at h ⊢
      split at h <;> simp_all
    · simp only [InertialSource.meet] at h ⊢
      split at h <;> simp_all
    · simp_all
  · rfl

theorem run_eq_ofSeen (calls : List Call) : run calls = ofSeen (offered calls) := by
  induction calls using List.reverseRecOn with
  | nil => rfl
  | append_singleton calls c ih =>
    rw [run_append, ih]
    cases c with
    | accept k => rw [offered_append_accept]; exact accept_ofSeen _ k
    | reset => rw [offered_append_reset]; rfl

/-- After any calls, the state of the arbiter and its next answer are determined by the set of kinds
that were offered since the last reset. -/
theorem run_closed_form (calls : List Call) :
    (run calls).attitude = .best (offered calls) ∧
    (run calls).inertial = .best (offered calls) ∧
    (∀ k, ((run calls).accept k).accepted = true ↔
      k = .attitudeQuaternion ∨ (k = .attitude ∧ .attitudeQuaternion ∉ offered calls) ∨
        (k.quantity = .inertialRaw ∧ ∀ l ∈ offered calls, ¬ l.Outranks k) ∨
        (k = .scaledPressure ∧ .highresImu ∉ offered calls)) ∧
    (∀ calls', offered calls' = offered calls → run calls' = run calls) ∧
    (∀ k, ((run calls).accept k).accepted = false ∨ k = .scaledPressure →
      ((run calls).accept k).arbiter = run calls) := by
  refine ⟨?_, ?_, fun k => ?_, fun calls' h => ?_, fun k => accept_unchanged⟩
  · rw [run_eq_ofSeen]; rfl
  · rw [run_eq_ofSeen]; rfl
  · rw [run_eq_ofSeen]; exact accepted_ofSeen _ k
  · rw [run_eq_ofSeen, run_eq_ofSeen, h]

end Arbiter
end InertialRelay
