import InertialRelay.Config.Load
import InertialRelay.Proofs.Readings
import InertialRelay.Proofs.Rules

/-!
# Documents over the packaged settings

A configuration is put together setting by setting: what the document says about a setting is read by the rule of the
setting, and what it does not mention has a default. The defaults are those of the packaged document, all but one: the
angular velocity deviation is rounded there (`BridgeConfig.load_overrides`).
-/

namespace InertialRelay

variable {α γ δ : Type}

/-- What data holds under a path of keys. -/
def Data.at? : List String → Data → Option Data
  | [], d => some d
  | key :: path, .map es => (field? es key).bind (at? path)
  | _ :: _, _ => none

/-- Nothing is mentioned by data that counts as empty, whatever it is. -/
theorem Data.at?_of_isVoid {d : Data} (h : d.isVoid = true) (key : String) (path : List String) :
    d.at? (key :: path) = Data.at? (key :: path) (.map []) := by
  cases d with
  | map es =>
    cases es with
    | nil => rfl
    | cons e es => cases h
  | _ => rfl

/-- One of the settings that a configuration is made of: where documents write it, what reads it there, and where the
configuration keeps it. -/
structure Setting (γ : Type) where
  Value : Type
  path : List String
  rule : Rule Value
  get : γ → Value

namespace Setting

/-- The setting under one key of a section. -/
def field (key : String) (rule : Rule α) (get : γ → α) : Setting γ := ⟨α, [key], rule, get⟩

/-- A setting of a section, seen from the configuration around the section. -/
def inside (key : String) (get : δ → γ) (s : Setting γ) : Setting δ :=
  ⟨s.Value, key :: s.path, s.rule, fun c => s.get (get c)⟩

/-- Whether `c` holds what data says about a setting, and what `base` holds if the data does not mention it. -/
def Follows (s : Setting γ) (d : Data) (base c : γ) : Prop :=
  match d.at? s.path with
  | some v => s.rule v = .ok (s.get c)
  | none => s.get c = s.get base

variable {s : Setting γ} {d : Data} {base base' c c' : γ}

theorem Follows.unique (h : s.Follows d base c) (h' : s.Follows d base c') : s.get c' = s.get c := by
  unfold Follows at h h'
  cases hd : d.at? s.path with
  | none =>
    rw [hd] at h h'
    exact h'.trans h.symm
  | some v =>
    rw [hd] at h h'
    exact Checked.ok.inj (h'.symm.trans h)

theorem Follows.congr {d' : Data} (h : s.Follows d base c) (hat : d'.at? s.path = d.at? s.path) :
    s.Follows d' base c := by
  unfold Follows
  rw [hat]
  exact h

theorem follows_iff_of_none (hd : d.at? s.path = none) : s.Follows d base c ↔ s.get c = s.get base := by
  rw [Follows, hd]

/-- What is mentioned does not depend on the defaults. -/
theorem Follows.rebase (h : s.Follows d base c)
    (hbase : (d.at? s.path).isSome = true ∨ s.get base' = s.get base) : s.Follows d base' c := by
  unfold Follows at h ⊢
  cases hd : d.at? s.path with
  | none =>
    rw [hd] at h hbase
    rcases hbase with hbase | hbase
    · cases hbase
    · exact h.trans hbase.symm
  | some v =>
    rw [hd] at h
    exact h

section
variable {es : List (String × Data)} {key : String}

theorem follows_field {rule : Rule α} {get : γ → α}
    (h : Rule.Fields.orElse es key rule (get base) = .ok (get c)) :
    (field key rule get).Follows (.map es) base c := by
  rcases Rule.Fields.orElse_eq_ok.1 h with ⟨d, hd, hr⟩ | ⟨hn, hdefault⟩
  · simpa [Follows, field, Data.at?, hd] using hr
  · simpa [Follows, field, Data.at?, hn] using hdefault.symm

/-- The settings of a section follow the document if they follow what it holds under the key of the section. -/
theorem follows_inside {rule : Rule γ} {get : δ → γ} {base c : δ} {settings : List (Setting γ)}
    (hrule : ∀ {d a}, rule d = .ok a → ∀ s ∈ settings, s.Follows d (get base) a)
    (h : Rule.Fields.orElse es key rule (get base) = .ok (get c)) :
    ∀ s ∈ settings.map (inside key get), s.Follows (.map es) base c := by
  simp only [List.forall_mem_map]
  intro s hs
  rcases Rule.Fields.orElse_eq_ok.1 h with ⟨d, hd, hr⟩ | ⟨hn, hdefault⟩
  · simpa [Follows, inside, Data.at?, hd] using hrule hr s hs
  · simp [Follows, inside, Data.at?, hn, hdefault]

end

end Setting

open Rule Setting

/-! ## The settings of each section -/

def Topics.settings : List (Setting Topics) :=
  [field "data" text Topics.data, field "data_ned" text Topics.dataNed, field "data_raw" text Topics.dataRaw,
    field "mag" text Topics.mag, field "atm_pressure" text Topics.atmPressure,
    field "temperature" text Topics.temperature]

def ImuConfig.settings : List (Setting ImuConfig) :=
  [field "frame_id" text ImuConfig.frameId,
    field "linear_acceleration_stdev" float ImuConfig.linearAccelerationStdev,
    field "angular_velocity_stdev" float ImuConfig.angularVelocityStdev,
    field "orientation_stdev" float ImuConfig.orientationStdev,
    field "magnetic_stdev" float ImuConfig.magneticStdev] ++
  Topics.settings.map (inside "topics" ImuConfig.topics)

def LinkConfig.settings : List (Setting LinkConfig) :=
  [field "url" text LinkConfig.url, field "source_system" int LinkConfig.sourceSystem,
    field "source_component" int LinkConfig.sourceComponent, field "conn_timeout_s" float LinkConfig.connTimeout,
    field "time_offset_s" (optional float) LinkConfig.timeOffset]

def LoggingConfig.settings : List (Setting LoggingConfig) :=
  [field "level" text LoggingConfig.level, field "to_file" bool LoggingConfig.toFile,
    field "log_dir" (optional text) LoggingConfig.logDir]

def BridgeConfig.settings : List (Setting BridgeConfig) :=
  ImuConfig.settings.map (inside "imu" BridgeConfig.imu) ++
    (LinkConfig.settings.map (inside "mavlink" BridgeConfig.link) ++
      LoggingConfig.settings.map (inside "logging" BridgeConfig.logging))

/-! ### What is accepted follows the document -/

section
variable {d : Data}

theorem Topics.follows {t : Topics} (h : topics d = .ok t) : ∀ s ∈ settings, s.Follows d {} t := by
  obtain ⟨es, rfl, hread⟩ := model_eq_ok.1 h
  simp only [Checked.seq_eq_ok, Checked.map_eq_ok] at hread
  obtain ⟨_, _, ⟨_, _, ⟨_, _, ⟨_, _, ⟨_, _, ⟨_, h₁, rfl⟩, h₂, rfl⟩, h₃, rfl⟩, h₄, rfl⟩, h₅, rfl⟩, h₆, rfl⟩ := hread
  simp only [settings, List.forall_mem_cons]
  exact ⟨follows_field h₁, follows_field h₂, follows_field h₃, follows_field h₄, follows_field h₅, follows_field h₆,
    nofun⟩

theorem ImuConfig.follows {c : ImuConfig} (h : imuConfig d = .ok c) : ∀ s ∈ settings, s.Follows d {} c := by
  obtain ⟨es, rfl, hread⟩ := model_eq_ok.1 h
  simp only [Checked.seq_eq_ok, Checked.map_eq_ok] at hread
  obtain ⟨_, _, ⟨_, _, ⟨_, _, ⟨_, _, ⟨_, _, ⟨_, h₁, rfl⟩, h₂, rfl⟩, h₃, rfl⟩, h₄, rfl⟩, h₅, rfl⟩, h₆, rfl⟩ := hread
  simp only [settings, List.forall_mem_append, List.forall_mem_cons]
  exact ⟨⟨follows_field h₁, follows_field h₂, follows_field h₃, follows_field h₄, follows_field h₅, nofun⟩,
    follows_inside Topics.follows h₆⟩

theorem LinkConfig.follows {c : LinkConfig} (h : linkConfig d = .ok c) : ∀ s ∈ settings, s.Follows d {} c := by
  obtain ⟨es, rfl, hread⟩ := model_eq_ok.1 h
  simp only [Checked.seq_eq_ok, Checked.map_eq_ok] at hread
  obtain ⟨_, _, ⟨_, _, ⟨_, _, ⟨_, _, ⟨_, h₁, rfl⟩, h₂, rfl⟩, h₃, rfl⟩, h₄, rfl⟩, h₅, rfl⟩ := hread
  simp only [settings, List.forall_mem_cons]
  exact ⟨follows_field h₁, follows_field h₂, follows_field h₃, follows_field h₄, follows_field h₅, nofun⟩

theorem LoggingConfig.follows {c : LoggingConfig} (h : loggingConfig d = .ok c) :
    ∀ s ∈ settings, s.Follows d {} c := by
  obtain ⟨es, rfl, hread⟩ := model_eq_ok.1 h
  simp only [Checked.seq_eq_ok, Checked.map_eq_ok] at hread
  obtain ⟨_, _, ⟨_, _, ⟨_, h₁, rfl⟩, h₂, rfl⟩, h₃, rfl⟩ := hread
  simp only [settings, List.forall_mem_cons]
  exact ⟨follows_field h₁, follows_field h₂, follows_field h₃, nofun⟩

theorem BridgeConfig.follows {c : BridgeConfig} (h : bridgeConfig d = .ok c) :
    ∀ s ∈ settings, s.Follows d {} c := by
  obtain ⟨es, rfl, hread⟩ := model_eq_ok.1 h
  simp only [Checked.seq_eq_ok, Checked.map_eq_ok] at hread
  obtain ⟨_, _, ⟨_, _, ⟨_, h₁, rfl⟩, h₂, rfl⟩, h₃, rfl⟩ := hread
  simp only [settings, List.forall_mem_append]
  exact ⟨follows_inside ImuConfig.follows h₁, follows_inside LinkConfig.follows h₂,
    follows_inside LoggingConfig.follows h₃⟩

end

/-! ### The settings are all there is to a configuration -/

theorem Topics.eq_of_settings {t t' : Topics} (h : ∀ s ∈ settings, s.get t = s.get t') : t = t' := by
  simp only [settings, List.forall_mem_cons, field] at h
  obtain ⟨h₁, h₂, h₃, h₄, h₅, h₆, -⟩ := h
  cases t
  congr

theorem ImuConfig.eq_of_settings {c c' : ImuConfig} (h : ∀ s ∈ settings, s.get c = s.get c') : c = c' := by
  simp only [settings, List.forall_mem_append, List.forall_mem_cons, List.forall_mem_map, field, inside] at h
  obtain ⟨⟨h₁, h₂, h₃, h₄, h₅, -⟩, h₆⟩ := h
  have htopics := Topics.eq_of_settings h₆
  cases c
  congr

theorem LinkConfig.eq_of_settings {c c' : LinkConfig} (h : ∀ s ∈ settings, s.get c = s.get c') : c = c' := by
  simp only [settings, List.forall_mem_cons, field] at h
  obtain ⟨h₁, h₂, h₃, h₄, h₅, -⟩ := h
  cases c
  congr

theorem LoggingConfig.eq_of_settings {c c' : LoggingConfig} (h : ∀ s ∈ settings, s.get c = s.get c') : c = c' := by
  simp only [settings, List.forall_mem_cons, field] at h
  obtain ⟨h₁, h₂, h₃, -⟩ := h
  cases c
  congr

theorem BridgeConfig.eq_of_settings {c c' : BridgeConfig} (h : ∀ s ∈ settings, s.get c = s.get c') : c = c' := by
  simp only [settings, List.forall_mem_append, List.forall_mem_map, inside] at h
  obtain ⟨h₁, h₂, h₃⟩ := h
  have himu := ImuConfig.eq_of_settings h₁
  have hlink := LinkConfig.eq_of_settings h₂
  have hlogging := LoggingConfig.eq_of_settings h₃
  cases c
  congr

/-! ## The packaged settings -/

theorem Yaml.read_ofList (depth : Nat) (cs : List Char) :
    Yaml.read depth (String.ofList cs) = (do
      match ← Document.ofText? (unifyLineEnds cs) with
      | none => return .null
      | some d =>
        d.survey (d.size + 1) (← d.meet {} d.root)
        d.value depth d.root) := by
  rewrite [Yaml.read, String.toList_ofList]
  rfl

namespace BridgeConfig

/-- What the packaged document holds: every default, one of them rounded. -/
def rounded : BridgeConfig := { imu := { angularVelocityStdev := 0.0003490659 } }

set_option maxRecDepth 10000 in
theorem load_packaged : load packaged = .ok rounded := by
  -- As a list of characters the document is read much faster than as a string.
  refine (congrArg (· >>= ofData) (Yaml.read_ofList depth _)).trans ?_
  decide +kernel

/-- The setting that has two defaults. -/
def angularVelocityStdev : Setting BridgeConfig :=
  inside "imu" BridgeConfig.imu (field "angular_velocity_stdev" float ImuConfig.angularVelocityStdev)

theorem angularVelocityStdev_mem : angularVelocityStdev ∈ settings :=
  List.mem_append_left _ (List.mem_map_of_mem (by simp [ImuConfig.settings]))

/-- All other defaults of the packaged document are those of the rules. -/
theorem get_rounded : ∀ s ∈ settings, s = angularVelocityStdev ∨ s.get rounded = s.get {} := by
  have himu : ∀ s ∈ ImuConfig.settings,
      inside "imu" BridgeConfig.imu s = angularVelocityStdev ∨ s.get rounded.imu = s.get {} := by
    simp only [ImuConfig.settings, List.forall_mem_append, List.forall_mem_cons, List.forall_mem_map]
    exact ⟨⟨.inr rfl, .inr rfl, .inl rfl, .inr rfl, .inr rfl, nofun⟩, fun _ _ => .inr rfl⟩
  simp only [settings, List.forall_mem_append, List.forall_mem_map]
  exact ⟨himu, fun _ _ => .inr rfl, fun _ _ => .inr rfl⟩

/-- A configuration that is the one in `base` with exactly the settings replaced that the data mentions, each by what
its rule reads there. -/
structure Overrides (d : Data) (base c : BridgeConfig) : Prop where
  follows : ∀ s ∈ settings, s.Follows d base c
  only : ∀ c', (∀ s ∈ settings, s.Follows d base c') → c' = c

variable {d : Data} {base c : BridgeConfig}

theorem overrides_of_follows (h : ∀ s ∈ settings, s.Follows d base c) : Overrides d base c :=
  ⟨h, fun _ h' => eq_of_settings fun s hs => (h s hs).unique (h' s hs)⟩

theorem follows_of_ofData (h : ofData d = .ok c) : ∀ s ∈ settings, s.Follows d {} c := by
  have hrule : bridgeConfig (if d.isVoid then .map [] else d) = .ok c := by
    unfold ofData at h
    split at h
    · next hvalid =>
      cases h
      exact validate_eq_ok.1 hvalid
    · cases h
  by_cases hd : d.isVoid = true
  · rw [if_pos hd] at hrule
    have hat : ∀ s ∈ settings, d.at? s.path = Data.at? s.path (.map []) := by
      simp only [settings, List.forall_mem_append, List.forall_mem_map]
      exact ⟨fun _ _ => Data.at?_of_isVoid hd .., fun _ _ => Data.at?_of_isVoid hd ..,
        fun _ _ => Data.at?_of_isVoid hd ..⟩
    exact fun s hs => (BridgeConfig.follows hrule s hs).congr (hat s hs)
  · rw [if_neg hd] at hrule
    exact BridgeConfig.follows hrule

theorem stdev_ne : rounded.imu.angularVelocityStdev ≠ 0.02 * (pi / 180.0) := by decide +kernel

theorem overrides_rounded_iff (h : ∀ s ∈ settings, s.Follows d {} c) :
    Overrides d rounded c ↔ (d.at? ["imu", "angular_velocity_stdev"]).isSome = true := by
  constructor
  · intro hr
    by_contra hsome
    have hnone : d.at? angularVelocityStdev.path = none := Option.not_isSome_iff_eq_none.1 hsome
    have hdefault := h _ angularVelocityStdev_mem
    have hpackaged := hr.follows _ angularVelocityStdev_mem
    rw [follows_iff_of_none hnone] at hdefault hpackaged
    exact stdev_ne (hpackaged.symm.trans hdefault)
  · intro hsome
    refine overrides_of_follows fun s hs => (h s hs).rebase ?_
    rcases get_rounded s hs with rfl | hget
    · exact .inl hsome
    · exact .inr hget

/-- A document is laid over the packaged settings, but with the exact angular velocity deviation in place of the rounded
one. So it overrides what is packaged exactly if it mentions that deviation. -/
theorem load_overrides {text : String} {c : BridgeConfig} (hc : load text = .ok c) :
    ∃ d p, Yaml.read depth text = .ok d ∧ load packaged = .ok p ∧
      Overrides d { p with imu.angularVelocityStdev := 0.02 * (pi / 180.0) } c ∧
      (Overrides d p c ↔ (d.at? ["imu", "angular_velocity_stdev"]).isSome = true) := by
  obtain ⟨d, hd, hc⟩ := bind_eq_ok.1 hc
  have hfollows := follows_of_ofData hc
  exact ⟨d, rounded, hd, load_packaged, overrides_of_follows hfollows, overrides_rounded_iff hfollows⟩

theorem load_overrides_stdev :
    ∃ c d p, load "imu:\n  angular_velocity_stdev: 0.5\n" = .ok c ∧
      Yaml.read depth "imu:\n  angular_velocity_stdev: 0.5\n" = .ok d ∧ load packaged = .ok p ∧
      Overrides d p c := by
  have hload : load "imu:\n  angular_velocity_stdev: 0.5\n" =
    .ok { imu := { angularVelocityStdev := 0.5 } } := by decide +kernel
  have hsome : ((Yaml.read depth "imu:\n  angular_velocity_stdev: 0.5\n").toOption.bind
    (Data.at? ["imu", "angular_velocity_stdev"])).isSome = true := by decide +kernel
  obtain ⟨d, p, hd, hp, -, hiff⟩ := load_overrides hload
  rw [hd] at hsome
  exact ⟨_, d, p, hload, hd, hp, hiff.2 hsome⟩

/-- Where a document does not mention the angular velocity deviation, the packaged one does not count. -/
theorem load_not_over_packaged :
    ∃ c d p, load "imu:\n  frame_id: imu_link\n" = .ok c ∧
      Yaml.read depth "imu:\n  frame_id: imu_link\n" = .ok d ∧ load packaged = .ok p ∧
      d.at? ["imu", "angular_velocity_stdev"] = none ∧
      c.imu.angularVelocityStdev ≠ p.imu.angularVelocityStdev ∧ ¬ Overrides d p c := by
  have hload : load "imu:\n  frame_id: imu_link\n" = .ok { imu := { frameId := "imu_link" } } := by decide +kernel
  have hnone : ((Yaml.read depth "imu:\n  frame_id: imu_link\n").toOption.bind
    (Data.at? ["imu", "angular_velocity_stdev"])).isNone = true := by decide +kernel
  obtain ⟨d, hd, hc⟩ := bind_eq_ok.1 hload
  rw [hd] at hnone
  have hat : d.at? ["imu", "angular_velocity_stdev"] = none := Option.isNone_iff_eq_none.1 hnone
  refine ⟨_, d, rounded, hload, hd, load_packaged, hat, stdev_ne.symm, fun h => ?_⟩
  have hsome := (overrides_rounded_iff (follows_of_ofData hc)).1 h
  rw [hat] at hsome
  cases hsome

end BridgeConfig

end InertialRelay
