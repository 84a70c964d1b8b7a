import InertialRelay.Proofs.Filtering
import InertialRelay.Proofs.Reconnection

/-!
# Decoding

`WireMessage.decode_inverts`: what the decoder makes of a wire message. It gives back every typed message whose type
and fields the wire message carries. Otherwise it gives none: in silence where the type is not one of the six, and
with a line about the first field that is missing where it is.

The fields are asked for one after the other in the order of their declaration (`Message.asks_ofFields?`), so the
field that a fault names is the first that is missing.
-/

namespace InertialRelay

/-! ### The order in which fields are asked for -/

namespace Message
variable {α : Type} {get : Lookup} {fields : List (String × Num)} {names : List String} {x : Except String α}

/-- A computation that needs just these fields and asks for them in this order. -/
inductive Asks (get : Lookup) : List String → Except String α → Prop where
  | done (a : α) : Asks get [] (pure a)
  | ask {name : String} {names : List String} {k : Num → Except String α} (h : ∀ v, Asks get names (k v)) :
    Asks get (name :: names) (get name >>= k)

theorem asks_ofFields? (k : Kind) (get : Lookup) : Asks get k.fieldNames (ofFields? k get) := by
  cases k <;> simp only [ofFields?, sample, rates, axes, bind_assoc, pure_bind, Kind.fieldNames]
  all_goals
    repeat refine .ask fun _ => ?_
    exact .done _

theorem Asks.eq_error_iff (h : Asks (lookupIn fields) names x) {name : String} :
    x = .error name ↔ names.find? (fun n => (fields.lookup n).isNone) = some name := by
  induction h with
  | done a => simp [pure, Except.pure]
  | @ask asked names k _ ih =>
    cases hl : fields.lookup asked with
    | none => simp [lookupIn, hl, bind_error]
    | some v => simpa [lookupIn, hl, bind, Except.bind] using ih v

end Message

/-- The conversion that belongs to a kind, on a message of that kind. There is none on a message of another. -/
inductive Reading.Converted (ardupilot : Bool) : Kind → Message → Except Fault Reading → Prop where
  | attitude (m : Attitude) : Converted ardupilot .attitude (.attitude m) (attitude <$> ofAttitude m)
  | attitudeQuaternion (m : AttitudeQuaternion) :
    Converted ardupilot .attitudeQuaternion (.attitudeQuaternion m) (attitude <$> ofAttitudeQuaternion m)
  | highresImu (m : HighresImu) : Converted ardupilot .highresImu (.highresImu m) (sensors <$> ofHighresImu m)
  | rawImu (m : ImuSample) : Converted ardupilot .rawImu (.rawImu m) (sensors <$> ofRawImu m ardupilot)
  | scaledImu (m : ImuSample) : Converted ardupilot .scaledImu (.scaledImu m) (sensors <$> ofScaledImu m)
  | scaledPressure (m : ScaledPressure) :
    Converted ardupilot .scaledPressure (.scaledPressure m) (sensors <$> ofScaledPressure m)

theorem Reading.converted_ofMessage (m : Message) (ardupilot : Bool) :
    Converted ardupilot m.kind m (ofMessage m ardupilot) := by
  cases m <;> constructor

namespace WireMessage
variable {w : WireMessage} {k : Kind} {m : Message} {name : String}

/-- The first field in the order of declaration that a message of a kind lacks. -/
def firstMissing? (w : WireMessage) (k : Kind) : Option String :=
  k.fieldNames.find? fun name => (w.fields.lookup name).isNone

/-- The line about a message of a type that lacks a field. -/
def complaint (type name : String) : LogEntry :=
  ⟨.warning, .decoder, "Malformed " ++ type ++ " message: " ++ ("'Message' object has no attribute '" ++ name ++ "'")⟩

theorem firstMissing?_isSome : (w.firstMissing? k).isSome ↔ ∃ name ∈ k.fieldNames, w.fields.lookup name = none := by
  simp [firstMissing?]

theorem ofFields?_eq_error_iff :
    Message.ofFields? k (Message.lookupIn w.fields) = .error name ↔ w.firstMissing? k = some name :=
  (Message.asks_ofFields? k _).eq_error_iff

theorem decode_of_missing (hk : Kind.ofName? w.type = some k) (h : w.firstMissing? k = some name) :
    w.decode = (none, [complaint w.type name]) := by
  unfold decode
  rw [hk]
  dsimp only
  rw [ofFields?_eq_error_iff.2 h]
  rfl

theorem decode_of_carries (h : w.Carries m) : w.decode = (some m, []) := by
  obtain ⟨ht, hfields⟩ := h
  have hget : ∀ field ∈ m.fields, Message.lookupIn w.fields field.1 = .ok field.2 :=
    fun field hf => Message.lookupIn_eq_ok.2 (hfields field hf)
  unfold decode
  rw [Kind.ofName?_eq_some.2 ht.symm]
  dsimp only
  rw [Message.ofFields?_of_get hget]

/-- What decoding can come to. -/
theorem decode_cases (w : WireMessage) :
    (Kind.ofName? w.type = none ∧ w.decode = (none, [])) ∨
    (∃ k name, Kind.ofName? w.type = some k ∧ w.firstMissing? k = some name ∧
      w.decode = (none, [complaint w.type name])) ∨
    ∃ k m, Kind.ofName? w.type = some k ∧ w.firstMissing? k = none ∧ w.decode = (some m, []) := by
  cases hk : Kind.ofName? w.type with
  | none => exact .inl ⟨rfl, decode_of_not_kind hk⟩
  | some k =>
    cases hm : w.firstMissing? k with
    | some name => exact .inr (.inl ⟨k, name, rfl, hm, decode_of_missing hk hm⟩)
    | none =>
      cases hf : Message.ofFields? k (Message.lookupIn w.fields) with
      | error name =>
        rw [ofFields?_eq_error_iff.1 hf] at hm
        cases hm
      | ok m =>
        obtain ⟨rfl, hget⟩ := Message.get_of_ofFields? hf
        have hcarries : w.Carries m :=
          ⟨(Kind.ofName?_eq_some.1 hk).symm, fun field h => Message.lookupIn_eq_ok.1 (hget field h)⟩
        exact .inr (.inr ⟨m.kind, m, rfl, hm, decode_of_carries hcarries⟩)

theorem ofName?_eq_none_iff : Kind.ofName? w.type = none ↔ ∀ k : Kind, k.name ≠ w.type := by
  simp only [Option.eq_none_iff_forall_ne_some, ne_eq, Kind.ofName?_eq_some]

theorem decode_eq_none_iff : w.decode.1 = none ↔
    (∀ k : Kind, k.name ≠ w.type) ∨ ∃ k : Kind, k.name = w.type ∧ ∃ name ∈ k.fieldNames, w.fields.lookup name = none := by
  simp only [← ofName?_eq_none_iff, ← Kind.ofName?_eq_some, ← firstMissing?_isSome]
  rcases w.decode_cases with ⟨hk, hd⟩ | ⟨k, name, hk, hm, hd⟩ | ⟨k, m, hk, hm, hd⟩
  · simp [hk, hd]
  · simp [hk, hm, hd]
  · simp [hk, hm, hd]

/-- Every wire message, whatever the order of its fields and whatever fields it has besides. A typed message goes to
the arbiter and to the conversions under the type of the wire message. -/
theorem decode_inverts (w : WireMessage) :
    (∀ m, w.Carries m → w.decode = (some m, [])) ∧
    (w.decode.1 = none ↔ (∀ k : Kind, k.name ≠ w.type) ∨
      ∃ k : Kind, k.name = w.type ∧ ∃ name ∈ k.fieldNames, w.fields.lookup name = none) ∧
    ((∀ k : Kind, k.name ≠ w.type) → w.decode.2 = []) ∧
    (∀ k : Kind, k.name = w.type → (∃ name ∈ k.fieldNames, w.fields.lookup name = none) →
      ∃ name, w.firstMissing? k = some name ∧ w.decode.2 = [complaint w.type name]) ∧
    ∀ m, w.decode.1 = some m → ∃ k : Kind, k.name = w.type ∧
      (∀ (n : Node) (env : Ambient), (n.offer env m).node.arbiter = (n.arbiter.accept k).arbiter) ∧
      ∀ ardupilot, Reading.Converted ardupilot k m (Reading.ofMessage m ardupilot) := by
  refine ⟨fun m => decode_of_carries, decode_eq_none_iff, fun hk => ?_, fun k hk hmissing => ?_, fun m hm => ?_⟩
  · rw [decode_of_not_kind (ofName?_eq_none_iff.2 hk)]
  · obtain ⟨name, hname⟩ := Option.isSome_iff_exists.1 (firstMissing?_isSome.2 hmissing)
    exact ⟨name, hname, by rw [decode_of_missing (Kind.ofName?_eq_some.2 hk) hname]⟩
  · have htype : w.type = m.kind.name := (decode_eq_some.1 hm).1
    exact ⟨m.kind, htype.symm, fun n env => n.offer_arbiter env m, Reading.converted_ofMessage m⟩

example :
    decode ⟨"SCALED_PRESSURE", 1, [("temperature", .int 2500), ("id", .int 7), ("press_diff", .int 0),
      ("time_boot_ms", .int 5), ("press_abs", .int 1013)]⟩ =
      (some (.scaledPressure ⟨.int 5, .int 1013, .int 0, .int 2500⟩), []) := by
  rfl

end WireMessage
end InertialRelay
