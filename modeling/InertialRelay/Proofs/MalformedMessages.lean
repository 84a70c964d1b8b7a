import InertialRelay.Proofs.LoopCalls

/-!
# Messages that lack a field

`Roster.malformed_skipped_iff`: nobody is told of a message that lacks a field its type needs, and a loop
goes on after it as if nothing had come. Heartbeats are the exception. One that the link would have to take
is read field by field, outside the decoder that guards the others: it ends the loop, and it may have locked
the link by then.
-/

namespace InertialRelay

namespace Message
variable {k : Kind} {get : Lookup}

theorem axes_eq_ok {x y z : String} {v : Vec3 Num} :
    axes get x y z = .ok v ↔ get x = .ok v.x ∧ get y = .ok v.y ∧ get z = .ok v.z := by
  simp only [axes, bind_eq_ok, pure_eq_ok]
  constructor
  · rintro ⟨a, ha, b, hb, c, hc, rfl⟩
    exact ⟨ha, hb, hc⟩
  · rintro ⟨ha, hb, hc⟩
    exact ⟨v.x, ha, v.y, hb, v.z, hc, rfl⟩

theorem sample_eq_ok {time : String} {m : ImuSample} :
    sample get time = .ok m ↔ ∀ field ∈ m.fields time, get field.1 = .ok field.2 := by
  simp only [sample, bind_eq_ok, pure_eq_ok, axes_eq_ok, ImuSample.fields, List.forall_mem_cons]
  constructor
  · rintro ⟨t, ht, acc, ⟨hx, hy, hz⟩, gyro, ⟨hx', hy', hz'⟩, mag, ⟨hx'', hy'', hz''⟩, rfl⟩
    exact ⟨ht, hx, hy, hz, hx', hy', hz', hx'', hy'', hz'', by simp⟩
  · rintro ⟨ht, hx, hy, hz, hx', hy', hz', hx'', hy'', hz'', -⟩
    exact ⟨_, ht, m.acc, ⟨hx, hy, hz⟩, m.gyro, ⟨hx', hy', hz'⟩, m.mag, ⟨hx'', hy'', hz''⟩, rfl⟩

theorem get_of_ofFields? {m : Message} (h : ofFields? k get = .ok m) :
    m.kind = k ∧ ∀ field ∈ m.fields, get field.1 = .ok field.2 := by
  cases k <;> simp only [ofFields?, bind_eq_ok, pure_eq_ok, rates, axes_eq_ok] at h
  case attitude =>
    obtain ⟨t, ht, a, ha, b, hb, c, hc, v, ⟨hx, hy, hz⟩, rfl⟩ := h
    simp [kind, fields, *]
  case attitudeQuaternion =>
    obtain ⟨t, ht, a, ha, b, hb, c, hc, d, hd, v, ⟨hx, hy, hz⟩, rfl⟩ := h
    simp [kind, fields, *]
  case highresImu =>
    obtain ⟨t, ht, acc, ⟨hx, hy, hz⟩, gyro, ⟨hx', hy', hz'⟩, mag, ⟨hx'', hy'', hz''⟩, a, ha, b, hb, c, hc,
      d, hd, e, he, rfl⟩ := h
    simp [kind, fields, *]
  case rawImu =>
    obtain ⟨m, hm, rfl⟩ := h
    exact ⟨rfl, sample_eq_ok.1 hm⟩
  case scaledImu =>
    obtain ⟨m, hm, rfl⟩ := h
    exact ⟨rfl, sample_eq_ok.1 hm⟩
  case scaledPressure =>
    obtain ⟨t, ht, a, ha, b, hb, c, hc, rfl⟩ := h
    simp [kind, fields, *]

theorem ofFields?_of_get {m : Message} (h : ∀ field ∈ m.fields, get field.1 = .ok field.2) :
    ofFields? m.kind get = .ok m := by
  cases m with
  | rawImu m | scaledImu m =>
    have hm := sample_eq_ok.2 h
    simp [kind, ofFields?, hm]
  | attitude | attitudeQuaternion | highresImu | scaledPressure =>
    simp only [fields, List.forall_mem_cons] at h
    simp [kind, ofFields?, rates, axes, h, bind, Except.bind, pure, Except.pure]

theorem ofFields?_of_missing {name missing : String} (hn : name ∈ k.fieldNames)
    (hm : get name = .error missing) : ∃ other, ofFields? k get = .error other := by
  cases h : ofFields? k get with
  | error other => exact ⟨other, rfl⟩
  | ok m =>
    obtain ⟨rfl, hget⟩ := get_of_ofFields? h
    rw [← fields_names] at hn
    obtain ⟨field, hf, rfl⟩ := List.mem_map.1 hn
    rw [hget field hf] at hm
    cases hm

end Message

namespace WireMessage
variable {w : WireMessage}

/-- The fields that are read of a message of this type. -/
def needs (w : WireMessage) : List String :=
  if w.type = "HEARTBEAT" then ["autopilot", "type"]
  else match Kind.ofName? w.type with
    | some k => k.fieldNames
    | none => []

def Malformed (w : WireMessage) : Prop := ∃ name ∈ w.needs, w.fields.lookup name = none

theorem Malformed.decode (h : w.Malformed) : ∃ log, w.decode = (none, log) := by
  obtain ⟨name, hn, hl⟩ := h
  unfold needs at hn
  split at hn
  next ht => exact ⟨[], decode_of_not_kind (by rw [ht]; rfl)⟩
  next ht =>
    cases hk : Kind.ofName? w.type with
    | none => exact ⟨[], decode_of_not_kind hk⟩
    | some k =>
      rw [hk] at hn
      have hmissing : Message.lookupIn w.fields name = .error name := by simp [Message.lookupIn, hl]
      obtain ⟨other, ho⟩ := Message.ofFields?_of_missing hn hmissing
      simp only [WireMessage.decode, hk, ho]
      exact ⟨_, rfl⟩

end WireMessage

namespace Link
variable {τ : Type} {l : Link τ} {w : WireMessage}

/-- A heartbeat that the link passes over: one of no vehicle, or of another system than its own. -/
def PassesOver (l : Link τ) (w : WireMessage) : Prop :=
  ∃ autopilot, code w "autopilot" = .ok autopilot ∧
    (autopilot = invalidAutopilot ∨ l.admits w.system = false)

theorem code_of_missing {name : String} (h : w.fields.lookup name = none) :
    code w name = .error (.missingField name) := by
  simp [code, WireMessage.field?, h, bind, Except.bind]

theorem heartbeat_malformed (now : τ) (ht : w.type = "HEARTBEAT") (hw : w.Malformed) :
    (l.PassesOver w ∧ l.heartbeat now w = { link := l }) ∨
    (¬ l.PassesOver w ∧ ∃ target autopilot f,
      l.heartbeat now w = { link := { l with target, autopilot }, notice := .error f }) := by
  unfold heartbeat
  cases hc : code w "autopilot" with
  | error f => exact .inr ⟨by simp [PassesOver, hc], l.target, l.autopilot, f, rfl⟩
  | ok autopilot =>
    by_cases hp : autopilot = invalidAutopilot ∨ l.admits w.system = false
    · have hq : (autopilot = invalidAutopilot || !l.admits w.system) = true := by simpa using hp
      exact .inl ⟨⟨autopilot, hc, hp⟩, if_pos hq⟩
    · have hpass : ¬ l.PassesOver w := by
        rintro ⟨other, ho, h⟩
        obtain rfl : autopilot = other := Except.ok.inj (hc.symm.trans ho)
        exact hp h
      -- the autopilot was read, so it is the type that is missing
      have hmissing : w.fields.lookup "type" = none := by
        obtain ⟨name, hn, hl⟩ := hw
        simp only [WireMessage.needs, ht, if_true, List.mem_cons, List.not_mem_nil, or_false] at hn
        rcases hn with rfl | rfl
        · rw [code_of_missing hl] at hc
          cases hc
        · exact hl
      rw [not_or, Bool.not_eq_false] at hp
      refine .inr ⟨hpass, some w.system, some autopilot, .missingField "type", ?_⟩
      simp [hp, code_of_missing hmissing]

theorem receive_malformed (now : τ) (hw : w.Malformed) :
    ((w.type = "HEARTBEAT" → l.PassesOver w) ∧
      ∃ log, l.receive now w = { link := l, log, notice := .ok none }) ∨
    (¬ (w.type = "HEARTBEAT" → l.PassesOver w) ∧ ∃ target autopilot f,
      l.receive now w = { link := { l with target, autopilot }, notice := .error f }) := by
  obtain ⟨log, hd⟩ := hw.decode
  by_cases ht : w.type = "HEARTBEAT"
  · have hr : l.receive now w = l.heartbeat now w := by simp [receive, ht]
    rw [hr]
    rcases l.heartbeat_malformed now ht hw with ⟨hp, he⟩ | ⟨hp, he⟩
    · exact .inl ⟨fun _ => hp, [], he⟩
    · exact .inr ⟨fun h => hp (h ht), he⟩
  · refine .inl ⟨fun h => absurd h ht, ?_⟩
    unfold receive
    rw [if_neg ht]
    split
    · exact ⟨[], rfl⟩
    split
    · exact ⟨[], rfl⟩
    · exact ⟨log, by simp [hd]⟩

end Link

namespace ReadLoop
variable {τ σ : Type} [Timescale τ] {A : Audience τ σ} {c c' : Cycle τ} {l : Link τ} {s : σ}

theorem run_cons_agree (h : (turn A c l s).Agree (turn A c' l s)) (hs : c.stopped = c'.stopped)
    (rest : List (Cycle τ)) : (run A (c :: rest) l s).Agree (run A (c' :: rest) l s) := by
  simp only [run, h.fault, hs]
  split
  · exact h
  · rw [h.link, h.state]
    exact ⟨rfl, rfl, rfl⟩

theorem run_cons_of_fault {f : Fault} (h : (turn A c l s).fault = some f) (rest : List (Cycle τ)) :
    run A (c :: rest) l s = turn A c l s := by
  simp [run, h]

/-- A turn whose message changes nothing is one in which nothing came. -/
theorem turn_of_skipped {w : WireMessage} {log : Log} (hc : c.received = .message w)
    (hs : c.stopped = false) (hp : A.process c.atMessage w l s = ⟨l, s, log, none⟩) :
    (turn A c l s).Agree (turn A { c with received := .nothing } l s) := by
  simp only [turn, hc, hs, hp]
  exact ⟨rfl, rfl, rfl⟩

theorem turn_of_broken {w : WireMessage} {r : Linked τ σ} {f : Fault} (hc : c.received = .message w)
    (hs : c.stopped = false) (hp : A.process c.atMessage w l s = r) (hf : r.fault = some f) :
    turn A c l s = r := by
  simp [turn, hc, hs, hp, hf]

end ReadLoop

namespace Roster
variable {τ σ : Type} [Timescale τ]

/-- A message lacks a field that its type needs. Whoever is subscribed is not told of it, and the link keeps
all but its lock and its autopilot. The call ends without a fault, and leaves the link as it was, exactly if
the message is no heartbeat or is one that the link passes over. Then the loop goes on as if nothing had
come, and otherwise it ends. -/
theorem malformed_skipped_iff (R : Roster τ σ) {w : WireMessage} (hw : w.Malformed) (now : τ) (l : Link τ)
    (s : σ) (heard : List Heard) :
    let A := R.recorded.audience
    let r := A.process now w l (s, heard)
    (r.state = (s, heard) ∧ ∃ target autopilot, r.link = { l with target, autopilot }) ∧
    ((r.fault = none ∧ r.link = l) ↔ (w.type = "HEARTBEAT" → l.PassesOver w)) ∧
    ∀ (c : Cycle τ) (rest : List (Cycle τ)), c.received = .message w → c.stopped = false → c.atMessage = now →
      (r.fault = none → (ReadLoop.run A (c :: rest) l (s, heard)).Agree
        (ReadLoop.run A ({ c with received := .nothing } :: rest) l (s, heard))) ∧
      (r.fault ≠ none → ReadLoop.run A (c :: rest) l (s, heard) = r) := by
  intro A r
  rcases l.receive_malformed now hw with ⟨hp, log, he⟩ | ⟨hp, target, autopilot, f, he⟩
  · have hr : r = ⟨l, (s, heard), log, none⟩ := by simp [r, Audience.process, he, Audience.relay]
    rw [hr]
    refine ⟨⟨rfl, l.target, l.autopilot, rfl⟩, by simpa using hp, fun c rest hc hs hn =>
      ⟨fun _ => ?_, fun hf => absurd rfl hf⟩⟩
    subst hn
    exact ReadLoop.run_cons_agree (ReadLoop.turn_of_skipped hc hs hr) rfl rest
  · have hr : r = ⟨{ l with target, autopilot }, (s, heard), [], some f⟩ := by
      simp [r, Audience.process, he, Audience.relay]
    rw [hr]
    refine ⟨⟨rfl, target, autopilot, rfl⟩, by simpa using hp, fun c rest hc hs hn =>
      ⟨fun hf => absurd hf (Option.some_ne_none f), fun _ => ?_⟩⟩
    subst hn
    have ht := ReadLoop.turn_of_broken hc hs hr rfl
    rw [ReadLoop.run_cons_of_fault (congrArg Linked.fault ht), ht]

/-- A link that is locked to one system skips a heartbeat of another that has no type. -/
theorem malformed_skipped_foreign :
    let R : Roster Num Unit := ⟨[fun _ _ _ s => { state := s }], [fun _ _ _ s => { state := s }]⟩
    let w : WireMessage := ⟨"HEARTBEAT", 2, [("autopilot", .int 3)]⟩
    let l : Link Num :=
      { timeout := .real 10, connected := true, autopilot := some 3, vehicleType := some 2
        target := some 1, lastHeartbeat := some (.int 0) }
    let r := R.recorded.audience.process (.int 5) w l ((), [])
    w.Malformed ∧ (r.fault = none ∧ r.link = l) ∧ r.state = ((), []) := by
  intro R w l r
  have hw : w.Malformed := ⟨"type", by decide, by decide⟩
  obtain ⟨hs, hi, -⟩ := malformed_skipped_iff R hw (.int 5) l () []
  exact ⟨hw, hi.2 fun _ => ⟨3, by rfl, .inr (by rfl)⟩, hs.1⟩

/-- A heartbeat that has no type locks a new link without connecting it, and ends the loop before the
complete heartbeat that follows. -/
theorem malformed_locks :
    let R : Roster Num Unit := ⟨[fun _ _ _ s => { state := s }], [fun _ _ _ s => { state := s }]⟩
    let w : WireMessage := ⟨"HEARTBEAT", 1, [("autopilot", .int 3)]⟩
    let beat : WireMessage := ⟨"HEARTBEAT", 1, [("autopilot", .int 3), ("type", .int 2)]⟩
    let l : Link Num := { timeout := .real 10 }
    let script : List ScriptItem := [.message w, .message beat]
    let r := R.recorded.audience.process (.int 0) w l ((), [])
    w.Malformed ∧ r.fault = some (.missingField "type") ∧ r.link.target = some 1 ∧
      r.link.connected = false ∧
      ReadLoop.run R.recorded.audience (ScriptItem.cycles (.int 0) script) l ((), []) = r := by
  intro R w beat l script r
  exact ⟨⟨"type", by decide, by decide⟩, by rfl, by rfl, by rfl, by rfl⟩

end Roster
end InertialRelay
