import InertialRelay.Config.Load
import InertialRelay.Proofs.Rules
import InertialRelay.Record

/-!
# Reading back

A rule takes many spellings of one value: a number may stand as text, a field with a default may be absent, a mapping
may hold what no field asks for. The value itself has one form as data, and the rule reads that form as the value it
came from. So what is accepted once is accepted again, unchanged (`Schema.validate_retracts`).
-/

namespace InertialRelay

variable {α : Type}

namespace Rule

open Fields (required orElse)

/-! ### Scalars and sequences -/

section
variable {rule : Rule α} {f : α → Data}

theorem float_real (x : Float) : float (.real x) = .ok x := rfl

theorem int_int (n : Int) : int (.int n) = .ok n := rfl

theorem bool_bool (b : Bool) : bool (.bool b) = .ok b := rfl

theorem text_str (s : String) : text (.str s) = .ok s := rfl

/-- Null is how an absent value is written, so nothing else may be. -/
theorem optional_elim (h : ∀ a, rule (f a) = .ok a) (hf : ∀ a, f a ≠ .null) (o : Option α) :
    optional rule (o.elim .null f) = .ok o := by
  cases o with
  | none => rfl
  | some a =>
    rw [Option.elim_some, optional, h]
    · rfl
    · exact hf a

theorem items_map (h : ∀ a, rule (f a) = .ok a) (as : List α) (i : Nat) :
    items rule as.length i (as.map f) = .ok ⟨as, rfl⟩ := by
  induction as generalizing i with
  | nil => rfl
  | cons a as ih =>
    have hrest : items rule as.length (i + 1) ((f a :: as.map f).drop 1) = .ok ⟨as, rfl⟩ := ih (i + 1)
    simp only [List.length_cons, List.map_cons, items, h, hrest, Checked.within_ok, Checked.map_ok, Checked.ok_seq_ok]

theorem tuple_map (h : ∀ a, rule (f a) = .ok a) {n : Nat} (as : List α) (hn : as.length = n) :
    tuple n rule (.tuple (as.map f)) = .ok ⟨as, hn⟩ := by
  subst hn
  rw [tuple, List.length_map, if_neg (Nat.lt_irrefl _)]
  exact items_map h as 0

end

/-! ### Published records -/

theorem covariance_toData (c : Covariance) : covariance c.toData = .ok c := by
  rw [covariance, Covariance.toData, tuple_map float_real c.entries c.length_entries, Checked.map_ok]

theorem vec3_toData (v : Vec3 Float) : vec3 v.toData = .ok v := rfl

theorem quaternion_toData (q : Quaternion Float) : quaternion q.toData = .ok q := rfl

theorem header_toData (h : Header) : header h.toData = .ok h := rfl

theorem imuRecord_toData (r : ImuRecord) : imuRecord r.toData = .ok r := by
  simp [imuRecord, model, ImuRecord.toData, required, orElse, Data.field?, header_toData, quaternion_toData,
    vec3_toData, covariance_toData]

theorem magneticFieldRecord_toData (r : MagneticFieldRecord) : magneticFieldRecord r.toData = .ok r := by
  simp [magneticFieldRecord, model, MagneticFieldRecord.toData, required, orElse, Data.field?, header_toData,
    vec3_toData, covariance_toData]

theorem fluidPressureRecord_toData (r : FluidPressureRecord) : fluidPressureRecord r.toData = .ok r := rfl

theorem temperatureRecord_toData (r : TemperatureRecord) : temperatureRecord r.toData = .ok r := rfl

/-! ### Settings -/

theorem topics_toData (t : Topics) : topics t.toData = .ok t := rfl

theorem imuConfig_toData (c : ImuConfig) : imuConfig c.toData = .ok c := rfl

theorem linkConfig_toData (c : LinkConfig) : linkConfig c.toData = .ok c := by
  have htime := optional_elim float_real (fun _ h => by cases h) c.timeOffset
  simp [linkConfig, model, LinkConfig.toData, orElse, Data.field?, text_str, int_int, float_real, htime]

theorem loggingConfig_toData (c : LoggingConfig) : loggingConfig c.toData = .ok c := by
  have hdir := optional_elim text_str (fun _ h => by cases h) c.logDir
  simp [loggingConfig, model, LoggingConfig.toData, orElse, Data.field?, text_str, bool_bool, hdir]

theorem bridgeConfig_toData (c : BridgeConfig) : bridgeConfig c.toData = .ok c := by
  simp [bridgeConfig, model, BridgeConfig.toData, orElse, Data.field?, imuConfig_toData, linkConfig_toData,
    loggingConfig_toData]

end Rule

/-- What data is validated as: settings, published records and their parts. -/
inductive Schema where
  | bridgeConfig
  | imuConfig
  | linkConfig
  | loggingConfig
  | topics
  | header
  | vec3
  | quaternion
  | imuRecord
  | magneticFieldRecord
  | fluidPressureRecord
  | temperatureRecord
  deriving Repr, DecidableEq

namespace Schema

abbrev Value : Schema → Type
  | bridgeConfig => BridgeConfig
  | imuConfig => ImuConfig
  | linkConfig => LinkConfig
  | loggingConfig => LoggingConfig
  | topics => Topics
  | header => Header
  | vec3 => Vec3 Float
  | quaternion => Quaternion Float
  | imuRecord => ImuRecord
  | magneticFieldRecord => MagneticFieldRecord
  | fluidPressureRecord => FluidPressureRecord
  | temperatureRecord => TemperatureRecord

/-- The name under which issues are reported. -/
def title : Schema → String
  | bridgeConfig => "BridgeConfig"
  | imuConfig => "ImuConfig"
  | linkConfig => "MavlinkConfig"
  | loggingConfig => "LoggingConfig"
  | topics => "TopicsConfig"
  | header => "Header"
  | vec3 => "Vector3"
  | quaternion => "Quaternion"
  | imuRecord => "ImuRecord"
  | magneticFieldRecord => "MagneticFieldRecord"
  | fluidPressureRecord => "FluidPressureRecord"
  | temperatureRecord => "TemperatureRecord"

def rule : (s : Schema) → Rule s.Value
  | bridgeConfig => Rule.bridgeConfig
  | imuConfig => Rule.imuConfig
  | linkConfig => Rule.linkConfig
  | loggingConfig => Rule.loggingConfig
  | topics => Rule.topics
  | header => Rule.header
  | vec3 => Rule.vec3
  | quaternion => Rule.quaternion
  | imuRecord => Rule.imuRecord
  | magneticFieldRecord => Rule.magneticFieldRecord
  | fluidPressureRecord => Rule.fluidPressureRecord
  | temperatureRecord => Rule.temperatureRecord

def toData : (s : Schema) → s.Value → Data
  | bridgeConfig => BridgeConfig.toData
  | imuConfig => ImuConfig.toData
  | linkConfig => LinkConfig.toData
  | loggingConfig => LoggingConfig.toData
  | topics => Topics.toData
  | header => Header.toData
  | vec3 => Vec3.toData
  | quaternion => Quaternion.toData
  | imuRecord => ImuRecord.toData
  | magneticFieldRecord => MagneticFieldRecord.toData
  | fluidPressureRecord => FluidPressureRecord.toData
  | temperatureRecord => TemperatureRecord.toData

def validate (s : Schema) (d : Data) : Except Invalid s.Value := s.rule.validate s.title d

theorem rule_toData : (s : Schema) → (v : s.Value) → s.rule (s.toData v) = .ok v
  | bridgeConfig => Rule.bridgeConfig_toData
  | imuConfig => Rule.imuConfig_toData
  | linkConfig => Rule.linkConfig_toData
  | loggingConfig => Rule.loggingConfig_toData
  | topics => Rule.topics_toData
  | header => Rule.header_toData
  | vec3 => Rule.vec3_toData
  | quaternion => Rule.quaternion_toData
  | imuRecord => Rule.imuRecord_toData
  | magneticFieldRecord => Rule.magneticFieldRecord_toData
  | fluidPressureRecord => Rule.fluidPressureRecord_toData
  | temperatureRecord => Rule.temperatureRecord_toData

theorem validate_toData (s : Schema) (v : s.Value) : s.validate (s.toData v) = .ok v :=
  Rule.validate_eq_ok.2 (s.rule_toData v)

/-- Validation is a retraction onto the form that values have as data: that form is always accepted and gives the
value back, so validating what was made of accepted data changes nothing, nor does it turn a refusal into anything
else. Floats, also those that are not a number, integers and covariances are kept as they are. -/
theorem validate_retracts (s : Schema) :
    (∀ v, s.validate (s.toData v) = .ok v) ∧
      (∀ d, (s.validate d >>= fun v => s.validate (s.toData v)) = s.validate d) ∧
      (∀ x, Rule.float (.real x) = .ok x) ∧ (∀ n, Rule.int (.int n) = .ok n) ∧
      ∀ c : Covariance, Rule.covariance c.toData = .ok c := by
  refine ⟨s.validate_toData, fun d => ?_, Rule.float_real, Rule.int_int, Rule.covariance_toData⟩
  cases hd : s.validate d with
  | error e => rfl
  | ok v => exact s.validate_toData v

end Schema

end InertialRelay
