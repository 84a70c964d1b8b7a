import InertialRelay.Proofs.DeclaredFields
import InertialRelay.Proofs.ReadBack

/-!
# Validation field by field

`Schema.validate_fieldwise`: a mapping is accepted exactly if each declared field gives a value on its own, and
otherwise all issues of all fields are reported, in the order in which the fields are declared, each under the key of
its field. Sequences of nine numbers are read in the same way, item by item (`Rule.Itemwise`). The tables of fields say
what is declared.
-/

namespace InertialRelay

open Rule

theorem Covariance.itemwise : Itemwise 9 float covariance Covariance.entries where
  eq_ok_iff {d ds c} hd := by
    rw [covariance, Checked.map_eq_ok]
    constructor
    · rintro ⟨as, has, rfl⟩
      exact ((tuple_itemwise 9 float).eq_ok_iff hd).1 has
    · exact fun h => ⟨⟨c.entries, c.length_entries⟩, ((tuple_itemwise 9 float).eq_ok_iff hd).2 h, rfl⟩
  eq_failed_iff {d ds is} hd := by
    rw [← (tuple_itemwise 9 float).eq_failed_iff hd, Checked.failed_iff, Checked.failed_iff, covariance,
      Checked.fails_map, Checked.issues_map]
  elsewhere d h := by
    rw [covariance, (tuple_itemwise 9 float).elsewhere d h]
    rfl

/-! ### The fields of each model -/

namespace Vec3

def fields : List (DeclaredField (Vec3 Float)) :=
  [.whole "x" float (some 0) Vec3.x,
    .whole "y" float (some 0) Vec3.y,
    .whole "z" float (some 0) Vec3.z]

theorem fieldwise : Fieldwise "Vector3" fields vec3 where
  gathers es := by exact .next _ (.next _ (.first _ _))
  gives h := by
    simp only [vec3, model, Checked.seq_eq_ok, Checked.map_eq_ok] at h
    obtain ⟨_, _, ⟨_, _, ⟨_, h₁, rfl⟩, h₂, rfl⟩, h₃, rfl⟩ := h
    simp only [fields, List.forall_mem_cons]
    exact ⟨h₁, h₂, h₃, List.forall_mem_nil _⟩
  elsewhere _ := model_of_not_map

end Vec3

namespace Quaternion

def fields : List (DeclaredField (Quaternion Float)) :=
  [.whole "x" float (some 0) Quaternion.x,
    .whole "y" float (some 0) Quaternion.y,
    .whole "z" float (some 0) Quaternion.z,
    .whole "w" float (some 1) Quaternion.w]

theorem fieldwise : Fieldwise "Quaternion" fields quaternion where
  gathers es := by exact .next _ (.next _ (.next _ (.first _ _)))
  gives h := by
    simp only [quaternion, model, Checked.seq_eq_ok, Checked.map_eq_ok] at h
    obtain ⟨_, _, ⟨_, _, ⟨_, _, ⟨_, h₁, rfl⟩, h₂, rfl⟩, h₃, rfl⟩, h₄, rfl⟩ := h
    simp only [fields, List.forall_mem_cons]
    exact ⟨h₁, h₂, h₃, h₄, List.forall_mem_nil _⟩
  elsewhere _ := model_of_not_map

end Quaternion

namespace Header

def fields : List (DeclaredField Header) :=
  [.whole "stamp" float none Header.stamp,
    .whole "frame_id" text none Header.frameId]

theorem fieldwise : Fieldwise "Header" fields header where
  gathers es := by exact .next _ (.first _ _)
  gives h := by
    simp only [header, model, Checked.seq_eq_ok, Checked.map_eq_ok] at h
    obtain ⟨_, _, ⟨_, h₁, rfl⟩, h₂, rfl⟩ := h
    simp only [fields, List.forall_mem_cons]
    exact ⟨h₁, h₂, List.forall_mem_nil _⟩
  elsewhere _ := model_of_not_map

end Header

namespace ImuRecord

def fields : List (DeclaredField ImuRecord) :=
  [Header.fieldwise.field "header" none ImuRecord.header,
    Quaternion.fieldwise.field "orientation" (some ⟨1, 0, 0, 0⟩) ImuRecord.orientation,
    .whole "orientation_covariance" covariance (some .unknown) ImuRecord.orientationCovariance,
    Vec3.fieldwise.field "angular_velocity" (some .zero) ImuRecord.angularVelocity,
    .whole "angular_velocity_covariance" covariance (some .unknown) ImuRecord.angularVelocityCovariance,
    Vec3.fieldwise.field "linear_acceleration" (some .zero) ImuRecord.linearAcceleration,
    .whole "linear_acceleration_covariance" covariance (some .unknown) ImuRecord.linearAccelerationCovariance]

theorem fieldwise : Fieldwise "ImuRecord" fields imuRecord where
  gathers es := by exact .next _ (.next _ (.next _ (.next _ (.next _ (.next _ (.first _ _))))))
  gives h := by
    simp only [imuRecord, model, Checked.seq_eq_ok, Checked.map_eq_ok] at h
    obtain ⟨_, _, ⟨_, _, ⟨_, _, ⟨_, _, ⟨_, _, ⟨_, _, ⟨_, h₁, rfl⟩, h₂, rfl⟩, h₃, rfl⟩, h₄, rfl⟩, h₅, rfl⟩, h₆, rfl⟩,
      h₇, rfl⟩ := h
    simp only [fields, List.forall_mem_cons]
    exact ⟨h₁, h₂, h₃, h₄, h₅, h₆, h₇, List.forall_mem_nil _⟩
  elsewhere _ := model_of_not_map

end ImuRecord

namespace MagneticFieldRecord

def fields : List (DeclaredField MagneticFieldRecord) :=
  [Header.fieldwise.field "header" none MagneticFieldRecord.header,
    Vec3.fieldwise.field "magnetic_field" none MagneticFieldRecord.magneticField,
    .whole "magnetic_field_covariance" covariance (some .unknown) MagneticFieldRecord.magneticFieldCovariance]

theorem fieldwise : Fieldwise "MagneticFieldRecord" fields magneticFieldRecord where
  gathers es := by exact .next _ (.next _ (.first _ _))
  gives h := by
    simp only [magneticFieldRecord, model, Checked.seq_eq_ok, Checked.map_eq_ok] at h
    obtain ⟨_, _, ⟨_, _, ⟨_, h₁, rfl⟩, h₂, rfl⟩, h₃, rfl⟩ := h
    simp only [fields, List.forall_mem_cons]
    exact ⟨h₁, h₂, h₃, List.forall_mem_nil _⟩
  elsewhere _ := model_of_not_map

end MagneticFieldRecord

namespace FluidPressureRecord

def fields : List (DeclaredField FluidPressureRecord) :=
  [Header.fieldwise.field "header" none FluidPressureRecord.header,
    .whole "fluid_pressure" float none FluidPressureRecord.fluidPressure,
    .whole "variance" float (some 0) FluidPressureRecord.variance]

theorem fieldwise : Fieldwise "FluidPressureRecord" fields fluidPressureRecord where
  gathers es := by exact .next _ (.next _ (.first _ _))
  gives h := by
    simp only [fluidPressureRecord, model, Checked.seq_eq_ok, Checked.map_eq_ok] at h
    obtain ⟨_, _, ⟨_, _, ⟨_, h₁, rfl⟩, h₂, rfl⟩, h₃, rfl⟩ := h
    simp only [fields, List.forall_mem_cons]
    exact ⟨h₁, h₂, h₃, List.forall_mem_nil _⟩
  elsewhere _ := model_of_not_map

end FluidPressureRecord

namespace TemperatureRecord

def fields : List (DeclaredField TemperatureRecord) :=
  [Header.fieldwise.field "header" none TemperatureRecord.header,
    .whole "temperature" float none TemperatureRecord.temperature,
    .whole "variance" float (some 0) TemperatureRecord.variance]

theorem fieldwise : Fieldwise "TemperatureRecord" fields temperatureRecord where
  gathers es := by exact .next _ (.next _ (.first _ _))
  gives h := by
    simp only [temperatureRecord, model, Checked.seq_eq_ok, Checked.map_eq_ok] at h
    obtain ⟨_, _, ⟨_, _, ⟨_, h₁, rfl⟩, h₂, rfl⟩, h₃, rfl⟩ := h
    simp only [fields, List.forall_mem_cons]
    exact ⟨h₁, h₂, h₃, List.forall_mem_nil _⟩
  elsewhere _ := model_of_not_map

end TemperatureRecord

namespace Topics

def fields : List (DeclaredField Topics) :=
  [.whole "data" text (some "imu/data") Topics.data,
    .whole "data_ned" text (some "imu/data_ned") Topics.dataNed,
    .whole "data_raw" text (some "imu/data_raw") Topics.dataRaw,
    .whole "mag" text (some "imu/mag") Topics.mag,
    .whole "atm_pressure" text (some "imu/atm_pressure") Topics.atmPressure,
    .whole "temperature" text (some "imu/temperature") Topics.temperature]

theorem fieldwise : Fieldwise "TopicsConfig" fields topics where
  gathers es := by exact .next _ (.next _ (.next _ (.next _ (.next _ (.first _ _)))))
  gives h := by
    simp only [topics, model, Checked.seq_eq_ok, Checked.map_eq_ok] at h
    obtain ⟨_, _, ⟨_, _, ⟨_, _, ⟨_, _, ⟨_, _, ⟨_, h₁, rfl⟩, h₂, rfl⟩, h₃, rfl⟩, h₄, rfl⟩, h₅, rfl⟩, h₆, rfl⟩ := h
    simp only [fields, List.forall_mem_cons]
    exact ⟨h₁, h₂, h₃, h₄, h₅, h₆, List.forall_mem_nil _⟩
  elsewhere _ := model_of_not_map

end Topics

namespace ImuConfig

def fields : List (DeclaredField ImuConfig) :=
  [.whole "frame_id" text (some "base_link") ImuConfig.frameId,
    .whole "linear_acceleration_stdev" float (some 0.0003) ImuConfig.linearAccelerationStdev,
    .whole "angular_velocity_stdev" float (some (0.02 * (pi / 180.0))) ImuConfig.angularVelocityStdev,
    .whole "orientation_stdev" float (some 1.0) ImuConfig.orientationStdev,
    .whole "magnetic_stdev" float (some 0.0) ImuConfig.magneticStdev,
    Topics.fieldwise.field "topics" (some {}) ImuConfig.topics]

theorem fieldwise : Fieldwise "ImuConfig" fields imuConfig where
  gathers es := by exact .next _ (.next _ (.next _ (.next _ (.next _ (.first _ _)))))
  gives h := by
    simp only [imuConfig, model, Checked.seq_eq_ok, Checked.map_eq_ok] at h
    obtain ⟨_, _, ⟨_, _, ⟨_, _, ⟨_, _, ⟨_, _, ⟨_, h₁, rfl⟩, h₂, rfl⟩, h₃, rfl⟩, h₄, rfl⟩, h₅, rfl⟩, h₆, rfl⟩ := h
    simp only [fields, List.forall_mem_cons]
    exact ⟨h₁, h₂, h₃, h₄, h₅, h₆, List.forall_mem_nil _⟩
  elsewhere _ := model_of_not_map

end ImuConfig

namespace LinkConfig

def fields : List (DeclaredField LinkConfig) :=
  [.whole "url" text (some "udp:0.0.0.0:14550") LinkConfig.url,
    .whole "source_system" int (some 255) LinkConfig.sourceSystem,
    .whole "source_component" int (some 191) LinkConfig.sourceComponent,
    .whole "conn_timeout_s" float (some 10.0) LinkConfig.connTimeout,
    .whole "time_offset_s" (optional float) (some none) LinkConfig.timeOffset]

theorem fieldwise : Fieldwise "MavlinkConfig" fields linkConfig where
  gathers es := by exact .next _ (.next _ (.next _ (.next _ (.first _ _))))
  gives h := by
    simp only [linkConfig, model, Checked.seq_eq_ok, Checked.map_eq_ok] at h
    obtain ⟨_, _, ⟨_, _, ⟨_, _, ⟨_, _, ⟨_, h₁, rfl⟩, h₂, rfl⟩, h₃, rfl⟩, h₄, rfl⟩, h₅, rfl⟩ := h
    simp only [fields, List.forall_mem_cons]
    exact ⟨h₁, h₂, h₃, h₄, h₅, List.forall_mem_nil _⟩
  elsewhere _ := model_of_not_map

end LinkConfig

namespace LoggingConfig

def fields : List (DeclaredField LoggingConfig) :=
  [.whole "level" text (some "INFO") LoggingConfig.level,
    .whole "to_file" bool (some true) LoggingConfig.toFile,
    .whole "log_dir" (optional text) (some none) LoggingConfig.logDir]

theorem fieldwise : Fieldwise "LoggingConfig" fields loggingConfig where
  gathers es := by exact .next _ (.next _ (.first _ _))
  gives h := by
    simp only [loggingConfig, model, Checked.seq_eq_ok, Checked.map_eq_ok] at h
    obtain ⟨_, _, ⟨_, _, ⟨_, h₁, rfl⟩, h₂, rfl⟩, h₃, rfl⟩ := h
    simp only [fields, List.forall_mem_cons]
    exact ⟨h₁, h₂, h₃, List.forall_mem_nil _⟩
  elsewhere _ := model_of_not_map

end LoggingConfig

namespace BridgeConfig

def fields : List (DeclaredField BridgeConfig) :=
  [ImuConfig.fieldwise.field "imu" (some {}) BridgeConfig.imu,
    LinkConfig.fieldwise.field "mavlink" (some {}) BridgeConfig.link,
    LoggingConfig.fieldwise.field "logging" (some {}) BridgeConfig.logging]

theorem fieldwise : Fieldwise "BridgeConfig" fields bridgeConfig where
  gathers es := by exact .next _ (.next _ (.first _ _))
  gives h := by
    simp only [bridgeConfig, model, Checked.seq_eq_ok, Checked.map_eq_ok] at h
    obtain ⟨_, _, ⟨_, _, ⟨_, h₁, rfl⟩, h₂, rfl⟩, h₃, rfl⟩ := h
    simp only [fields, List.forall_mem_cons]
    exact ⟨h₁, h₂, h₃, List.forall_mem_nil _⟩
  elsewhere _ := model_of_not_map

end BridgeConfig

/-! ### All models -/

namespace Schema

def fields : (s : Schema) → List (DeclaredField s.Value)
  | bridgeConfig => BridgeConfig.fields
  | imuConfig => ImuConfig.fields
  | linkConfig => LinkConfig.fields
  | loggingConfig => LoggingConfig.fields
  | topics => Topics.fields
  | header => Header.fields
  | vec3 => Vec3.fields
  | quaternion => Quaternion.fields
  | imuRecord => ImuRecord.fields
  | magneticFieldRecord => MagneticFieldRecord.fields
  | fluidPressureRecord => FluidPressureRecord.fields
  | temperatureRecord => TemperatureRecord.fields

theorem fieldwise : (s : Schema) → Fieldwise s.title s.fields s.rule
  | bridgeConfig => BridgeConfig.fieldwise
  | imuConfig => ImuConfig.fieldwise
  | linkConfig => LinkConfig.fieldwise
  | loggingConfig => LoggingConfig.fieldwise
  | topics => Topics.fieldwise
  | header => Header.fieldwise
  | vec3 => Vec3.fieldwise
  | quaternion => Quaternion.fieldwise
  | imuRecord => ImuRecord.fieldwise
  | magneticFieldRecord => MagneticFieldRecord.fieldwise
  | fluidPressureRecord => FluidPressureRecord.fieldwise
  | temperatureRecord => TemperatureRecord.fieldwise

/-- A mapping is accepted exactly if there is a model that has in each declared field what the mapping gives for it, or
the default where the mapping has nothing, and that model is the outcome. It is refused exactly if some field fails on
its own, and then with the issues of all fields in the order of their declaration, each under the key of its field; a
required field that is absent has one issue, any other absent field none. What is no mapping has one issue. The numbers
of a covariance are put together from its items in the same way. Mappings that hold alike data under the declared keys,
level by level, have the same outcome, whatever else they hold and in whatever order. -/
theorem validate_fieldwise (s : Schema) :
    (∀ es a, s.validate (.map es) = .ok a ↔ ∀ f ∈ s.fields, f.Gives es a) ∧
      (∀ es e, s.validate (.map es) = .error e ↔
        (∃ f ∈ s.fields, f.Fails es) ∧ e = ⟨s.title, s.fields.flatMap (·.issues es)⟩) ∧
      (∀ d, (∀ es, d ≠ .map es) →
        s.validate d = .error ⟨s.title, [{ loc := [], cause := .notModel s.title }]⟩) ∧
      Itemwise 9 Rule.float Rule.covariance Covariance.entries ∧
      ∀ d d', Alike s.fields d d' → s.validate d = s.validate d' := by
  have h := s.fieldwise
  refine ⟨fun es a => ?_, fun es e => ?_, fun d hd => ?_, Covariance.itemwise, fun d d' hd => ?_⟩
  · exact validate_eq_ok.trans h.eq_ok_iff
  · rw [validate, validate_eq_error]
    simp only [h.eq_failed_iff]
    constructor
    · rintro ⟨_, ⟨hf, rfl⟩, rfl⟩
      exact ⟨hf, rfl⟩
    · rintro ⟨hf, rfl⟩
      exact ⟨_, ⟨hf, rfl⟩, rfl⟩
  · rw [validate, Rule.validate, h.elsewhere d hd]
  · rw [validate, validate, Rule.validate, Rule.validate, h.congr hd]

/-- A record with faults in each of its fields, and the same with its keys in another order and among unknown ones. -/
theorem validate_fieldwise_faulty :
    let covariance : Data := .list [.int 1, .str "much"]
    let es : List (String × Data) := [("magnetic_field", .map [("x", .null)]),
      ("magnetic_field_covariance", covariance), ("header", .map [("frame_id", .int 3)])]
    let es' : List (String × Data) := [("header", .map [("seq", .int 9), ("frame_id", .int 3)]), ("unit", .str "T"),
      ("magnetic_field_covariance", covariance), ("magnetic_field", .map [("x", .null), ("xs", .list [])])]
    let missing (loc : List Step) : Issue := { loc, cause := .missing }
    Alike magneticFieldRecord.fields (.map es) (.map es') ∧
      magneticFieldRecord.validate (.map es') = magneticFieldRecord.validate (.map es) ∧
      magneticFieldRecord.validate (.map es) = .error ⟨"MagneticFieldRecord",
        [missing [.key "header", .key "stamp"],
          { loc := [.key "header", .key "frame_id"], cause := .notText },
          { loc := [.key "magnetic_field", .key "x"], cause := .notFloat },
          { loc := [.key "magnetic_field_covariance", .index 1], cause := .unreadableFloat }] ++
        [2, 3, 4, 5, 6, 7, 8].map fun k => missing [.key "magnetic_field_covariance", .index k]⟩ := by
  intro covariance es es' missing
  obtain ⟨-, hrefused, -, -, halike⟩ := validate_fieldwise magneticFieldRecord
  have hheader : Alike Header.fields (.map [("frame_id", .int 3)]) (.map [("seq", .int 9), ("frame_id", .int 3)]) := by
    refine .mappings ?_
    simp only [Header.fields, List.forall_mem_cons]
    exact ⟨.none, .some rfl, List.forall_mem_nil _⟩
  have hfield : Alike Vec3.fields (.map [("x", .null)]) (.map [("x", .null), ("xs", .list [])]) := by
    refine .mappings ?_
    simp only [Vec3.fields, List.forall_mem_cons]
    exact ⟨.some rfl, .none, .none, List.forall_mem_nil _⟩
  have hsame : Alike magneticFieldRecord.fields (.map es) (.map es') := by
    refine .mappings ?_
    simp only [fields, MagneticFieldRecord.fields, List.forall_mem_cons]
    exact ⟨.some hheader, .some hfield, .some rfl, List.forall_mem_nil _⟩
  refine ⟨hsame, (halike _ _ hsame).symm, (hrefused es _).2 ⟨⟨_, List.mem_cons_self, _, rfl⟩, ?_⟩⟩
  decide +kernel

end Schema

end InertialRelay
