import InertialRelay.Proofs.Arbitration

/-!
# Detections are logged once

`Arbiter.detections_logged_once`: between two resets the line about a kind is logged at the first message of
that kind that is accepted, and never again. Nothing in the arbiter counts the lines. They follow from its state
alone, which never falls back to a lesser source: a line is logged where an accepted message moves the arbiter
(`Arbiter.accept_log`), and a message of a kind that was accepted before moves it no more
(`Arbiter.Recalls.moved_iff`).
-/

namespace InertialRelay

/-- The line about the first message of a kind, of the kinds that have one. -/
def Kind.detection? : Kind → Option String
  | attitudeQuaternion => some "IMU: Attitude quaternion IMU detected!"
  | highresImu => some "IMU: High resolution IMU detected!"
  | scaledImu => some "IMU: Scaled IMU message used."
  | attitude | rawImu | scaledPressure => none

theorem AttitudeSource.announcement?_ofKind? {k : Kind} {s : AttitudeSource} (h : ofKind? k = some s) :
    s.announcement? = k.detection? := by
  cases k <;> cases h <;> rfl

theorem InertialSource.announcement?_ofKind? {k : Kind} {s : InertialSource} (h : ofKind? k = some s) :
    s.announcement? = k.detection? := by
  cases k <;> cases h <;> rfl

namespace Arbiter

def detection (text : String) : LogEntry := ⟨.info, .arbiter, text⟩

/-- The lines about the first message of a kind. -/
def detections (k : Kind) : Log := (k.detection?.map detection).toList

/-- The line about a refused message, with the state that it found. -/
def dropped (a : Arbiter) (k : Kind) : LogEntry :=
  ⟨.debug, .arbiter, "Dropped " ++ k.name ++ " (state=" ++ a.describe ++ ")"⟩

variable {a : Arbiter} {k : Kind} {text : String}

theorem announce_eq (moved : Bool) (text? : Option String) :
    announce moved text? = if moved = true then (text?.map detection).toList else [] := by
  cases moved <;> cases text? <;> rfl

theorem refusal_eq (a : Arbiter) (k : Kind) (accepted : Bool) :
    a.refusal k accepted = if accepted = true then [] else [a.dropped k] := rfl

/-- A message is announced where it is accepted and moves the arbiter, and it is dropped where it is refused. -/
theorem accept_log (a : Arbiter) (k : Kind) :
    (a.accept k).log =
      (if (a.accept k).accepted = true ∧ (a.accept k).arbiter ≠ a then detections k else []) ++
      if (a.accept k).accepted = true then [] else [a.dropped k] := by
  obtain ⟨attitude, inertial⟩ := a
  unfold accept
  split
  next _ s hs =>
    rw [detections, ← AttitudeSource.announcement?_ofKind? hs]
    by_cases hr : s.rank < attitude.rank <;> simp [AttitudeSource.meet, hr, announce_eq, refusal_eq]
  next s _ hs =>
    rw [detections, ← InertialSource.announcement?_ofKind? hs]
    by_cases hr : s.rank < inertial.rank <;> simp [InertialSource.meet, hr, announce_eq, refusal_eq]
  next => simp [refusal_eq]

theorem mem_detections {e : LogEntry} : e ∈ detections k ↔ ∃ text, k.detection? = some text ∧ e = detection text := by
  cases h : k.detection? <;> simp [detections, h]

/-- Lines about different kinds differ. -/
theorem count_detections {l : Kind} (h : k.detection? = some text) :
    (detections l).count (detection text) = if l = k then 1 else 0 := by
  cases k <;> cases h <;> cases l <;> rfl

theorem with_attitude_eq {s : AttitudeSource} : { a with attitude := s } = a ↔ a.attitude = s := by
  obtain ⟨attitude, inertial⟩ := a
  simp [eq_comm]

theorem with_inertial_eq {s : InertialSource} : { a with inertial := s } = a ↔ a.inertial = s := by
  obtain ⟨attitude, inertial⟩ := a
  simp [eq_comm]

/-- What an accepted message finds and what it leaves. -/
inductive Accepts (a : Arbiter) : Kind → Arbiter → Prop
  | attitude (h : a.attitude ≠ .quaternion) : Accepts a .attitude { a with attitude := .euler }
  | attitudeQuaternion : Accepts a .attitudeQuaternion { a with attitude := .quaternion }
  | highresImu : Accepts a .highresImu { a with inertial := .highres }
  | scaledImu (h : a.inertial ≠ .highres) : Accepts a .scaledImu { a with inertial := .scaled }
  | rawImu (hh : a.inertial ≠ .highres) (hs : a.inertial ≠ .scaled) :
      Accepts a .rawImu { a with inertial := .raw }
  | scaledPressure : Accepts a .scaledPressure a

theorem accepts_of_accepted (h : (a.accept k).accepted = true) : Accepts a k (a.accept k).arbiter := by
  obtain ⟨attitude, inertial⟩ := a
  cases k with
  | attitude =>
    cases attitude with
    | quaternion => cases h
    | unseen | euler => exact .attitude nofun
  | attitudeQuaternion => cases attitude <;> exact .attitudeQuaternion
  | highresImu => cases inertial <;> exact .highresImu
  | scaledImu =>
    cases inertial with
    | highres => cases h
    | unseen | raw | scaled => exact .scaledImu nofun
  | rawImu =>
    cases inertial with
    | highres | scaled => cases h
    | unseen | raw => exact .rawImu nofun nofun
  | scaledPressure => exact .scaledPressure

/-- Of the kinds accepted since the last reset, an arbiter recalls by its state those that are announced. -/
structure Recalls (a : Arbiter) (accepted : List Kind) : Prop where
  quaternion : a.attitude = .quaternion ↔ .attitudeQuaternion ∈ accepted
  highres : a.inertial = .highres ↔ .highresImu ∈ accepted
  scaled : a.inertial = .scaled ↔ .scaledImu ∈ accepted ∧ .highresImu ∉ accepted

namespace Recalls
variable {accepted : List Kind}

theorem new : ({} : Arbiter).Recalls [] := by
  constructor <;> simp

theorem accept (h : a.Recalls accepted) (ha : (a.accept k).accepted = true) :
    (a.accept k).arbiter.Recalls (accepted ++ [k]) := by
  obtain ⟨hq, hh, hs⟩ := h
  have hm := accepts_of_accepted ha
  generalize (a.accept k).arbiter = a' at hm ⊢
  cases hm with
  | attitude hn => exact ⟨by simpa [hn] using hq, by simpa using hh, by simpa using hs⟩
  | attitudeQuaternion => exact ⟨by simp, by simpa using hh, by simpa using hs⟩
  | highresImu => exact ⟨by simpa using hq, by simp, by simp⟩
  | scaledImu hn => exact ⟨by simpa using hq, by simpa [hn] using hh, by simpa [hn] using hh⟩
  | rawImu hnh hns => exact ⟨by simpa using hq, by simpa [hnh] using hh, by simpa [hns] using hs⟩
  | scaledPressure => exact ⟨by simpa using hq, by simpa using hh, by simpa using hs⟩

/-- An accepted message of a kind that has a line moves the arbiter if it is the first of its kind. -/
theorem moved_iff (h : a.Recalls accepted) (ha : (a.accept k).accepted = true) (hk : k.detection? = some text) :
    (a.accept k).arbiter ≠ a ↔ k ∉ accepted := by
  obtain ⟨hq, hh, hs⟩ := h
  have hm := accepts_of_accepted ha
  generalize (a.accept k).arbiter = a' at hm ⊢
  cases hm with
  | attitude | rawImu | scaledPressure => cases hk
  | attitudeQuaternion => rw [Ne, with_attitude_eq, hq]
  | highresImu => rw [Ne, with_inertial_eq, hh]
  | scaledImu hn =>
    rw [Ne, with_inertial_eq, hs, ← hh]
    simp [hn]

end Recalls

/-- What happened since the last reset. -/
structure Stretch where
  arbiter : Arbiter := {}
  /-- The kinds of the messages that were accepted, in their order. -/
  accepted : List Kind := []
  log : Log := []

namespace Stretch

def after (s : Stretch) : Call → Stretch
  | .accept k =>
    let v := s.arbiter.accept k
    ⟨v.arbiter, if v.accepted then s.accepted ++ [k] else s.accepted, s.log ++ v.log⟩
  | .reset => { arbiter := s.arbiter.reset }

/-- What happened since the last reset among calls on a new arbiter. -/
def run (calls : List Call) : Stretch := calls.foldl after {}

theorem run_append (calls : List Call) (c : Call) : run (calls ++ [c]) = (run calls).after c := by
  simp [run]

theorem run_arbiter (calls : List Call) : (run calls).arbiter = Arbiter.run calls := by
  induction calls using List.reverseRecOn with
  | nil => rfl
  | append_singleton calls c ih =>
    rw [run_append, Arbiter.run_append, ← ih]
    cases c <;> rfl

/-- The lines of a stretch are those about the first accepted messages of their kinds, among others about what was
dropped. -/
structure Told (s : Stretch) : Prop where
  recalls : s.arbiter.Recalls s.accepted
  count : ∀ k text, k.detection? = some text → s.log.count (detection text) = if k ∈ s.accepted then 1 else 0
  info : ∀ e ∈ s.log, e.severity = .info → ∃ k ∈ s.accepted, e ∈ detections k

/-- What is logged about the next message. -/
theorem Told.accept_log {s : Stretch} (h : s.Told) (k : Kind) :
    (s.arbiter.accept k).log =
      (if (s.arbiter.accept k).accepted = true ∧ k ∉ s.accepted then detections k else []) ++
      if (s.arbiter.accept k).accepted = true then [] else [s.arbiter.dropped k] := by
  rw [Arbiter.accept_log]
  congr 1
  cases hk : k.detection? with
  | none => simp [detections, hk]
  | some text =>
    refine if_congr (and_congr_right fun ha => ?_) rfl rfl
    exact h.recalls.moved_iff ha hk

theorem Told.refused {s : Stretch} (h : s.Told) (ha : (s.arbiter.accept k).accepted = false) :
    (s.after (.accept k)).Told := by
  have hs : s.after (.accept k) = ⟨s.arbiter, s.accepted, s.log ++ [s.arbiter.dropped k]⟩ := by
    simp [Stretch.after, ha, accept_unchanged (.inl ha), h.accept_log]
  rw [hs]
  refine ⟨h.recalls, fun l text hl => ?_, fun e he hi => ?_⟩
  · have hne : s.arbiter.dropped k ≠ detection text := nofun
    simp [h.count l text hl, hne]
  · rcases List.mem_append.1 he with he | he
    · exact h.info e he hi
    · obtain rfl := List.mem_singleton.1 he
      cases hi

theorem Told.accepted {s : Stretch} (h : s.Told) (ha : (s.arbiter.accept k).accepted = true) :
    (s.after (.accept k)).Told := by
  have hs : s.after (.accept k) = ⟨(s.arbiter.accept k).arbiter, s.accepted ++ [k],
      s.log ++ if k ∈ s.accepted then [] else detections k⟩ := by
    simp [Stretch.after, ha, h.accept_log]
  rw [hs]
  refine ⟨h.recalls.accept ha, fun l text hl => ?_, fun e he hi => ?_⟩
  · rw [List.count_append, h.count l text hl]
    by_cases hk : k ∈ s.accepted
    · have hmem : l ∈ s.accepted ++ [k] ↔ l ∈ s.accepted := by
        refine ⟨fun hm => ?_, List.mem_append_left _⟩
        rcases List.mem_append.1 hm with hm | hm
        · exact hm
        · rwa [List.mem_singleton.1 hm]
      simp [hk, hmem]
    · rw [if_neg hk, count_detections hl]
      by_cases hkl : k = l
      · subst hkl
        simp [hk]
      · simp [hkl, Ne.symm hkl]
  · rcases List.mem_append.1 he with he | he
    · obtain ⟨l, hl, hd⟩ := h.info e he hi
      exact ⟨l, List.mem_append_left _ hl, hd⟩
    · split at he
      · cases he
      · exact ⟨k, by simp, he⟩

theorem Told.after {s : Stretch} (h : s.Told) (c : Call) : (s.after c).Told := by
  cases c with
  | reset => exact ⟨.new, by simp [Stretch.after], nofun⟩
  | accept k =>
    cases ha : (s.arbiter.accept k).accepted with
    | false => exact h.refused ha
    | true => exact h.accepted ha

theorem run_told (calls : List Call) : (run calls).Told := by
  induction calls using List.reverseRecOn with
  | nil => exact ⟨.new, by simp [run], nofun⟩
  | append_singleton calls c ih =>
    rw [run_append]
    exact ih.after c

end Stretch

/-- After any calls on a new arbiter, each kind that has a line and of which a message was accepted since the last
reset was announced once since then; no other line of that severity was logged. The next message is announced if
it is the first of its kind to be accepted since the reset, and dropped with a line of its own if it is refused. -/
theorem detections_logged_once (calls : List Call) :
    let s := Stretch.run calls
    (∀ k text, k.detection? = some text →
      s.log.count ⟨.info, .arbiter, text⟩ = if k ∈ s.accepted then 1 else 0) ∧
    (∀ e ∈ s.log, e.severity = .info →
      ∃ k ∈ s.accepted, ∃ text, k.detection? = some text ∧ e = ⟨.info, .arbiter, text⟩) ∧
    ∀ k, ((run calls).accept k).log =
      (if ((run calls).accept k).accepted = true ∧ k ∉ s.accepted then
          (k.detection?.map fun text => ⟨.info, .arbiter, text⟩).toList else []) ++
        if ((run calls).accept k).accepted = true then []
        else [⟨.debug, .arbiter, "Dropped " ++ k.name ++ " (state=" ++ (run calls).describe ++ ")"⟩] := by
  intro s
  have h : s.Told := Stretch.run_told calls
  refine ⟨h.count, fun e he hi => ?_, fun k => ?_⟩
  · obtain ⟨k, hk, hd⟩ := h.info e he hi
    exact ⟨k, hk, mem_detections.1 hd⟩
  · rw [← Stretch.run_arbiter]
    exact h.accept_log k

end Arbiter
end InertialRelay
