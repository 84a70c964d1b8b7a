import InertialRelay.Log.Plan
import Mathlib.Data.List.Basic

/-!
# The level of the log

`LogRequest.settles_iff`: a name in any case settles the log at the level of the table that it spells, or at INFO when
it spells none, unless it spells one of the two layouts. With those no log is set up at all.

How a request goes on once its level is known does not depend on the level (`LogRequest.openFile_congr`), so that INFO
can stand for any level in what is said of the files and of the faults.
-/

namespace InertialRelay

namespace LevelName

/-- Two names that differ at most in the case of their letters. -/
def SameLetters (s t : String) : Prop := upper s = upper t

instance (s t : String) : Decidable (SameLetters s t) := inferInstanceAs (Decidable (upper s = upper t))

/-- The level that a name is to have: that of the table, in any case, and INFO for all other names. -/
def StandsFor (name : String) (n : Int) : Prop :=
  (∃ e ∈ table, SameLetters name e.1 ∧ e.2 = n) ∨
    (∀ e ∈ table, ¬SameLetters name e.1) ∧ Severity.info.level = n

instance (name : String) (n : Int) : Decidable (StandsFor name n) :=
  inferInstanceAs (Decidable ((∃ e ∈ table, _ ∧ _) ∨ (∀ e ∈ table, ¬_) ∧ _))

def layoutNames : List String := ["BASIC_FORMAT", "_STYLES"]

theorem upper_of_mem {e : String × Int} (he : e ∈ table) : upper e.1 = e.1 := by
  revert e
  decide +kernel

theorem lookup_of_mem {e : String × Int} (he : e ∈ table) : table.lookup e.1 = some e.2 := by
  revert e
  decide +kernel

theorem sameLetters_iff {name : String} {e : String × Int} (he : e ∈ table) :
    SameLetters name e.1 ↔ upper name = e.1 := by
  rw [SameLetters, upper_of_mem he]

theorem standsFor_iff {name : String} {n : Int} :
    StandsFor name n ↔ (table.lookup (upper name)).getD Severity.info.level = n := by
  cases h : table.lookup (upper name) with
  | some m =>
    obtain ⟨l₁, l₂, hl, -⟩ := List.lookup_eq_some_iff.1 h
    have he : (upper name, m) ∈ table := by rw [hl]; simp
    have hs : SameLetters name (upper name, m).1 := (sameLetters_iff he).2 rfl
    constructor
    · rintro (⟨e, he', hs', rfl⟩ | ⟨hnone, -⟩)
      · rw [(sameLetters_iff he').1 hs', lookup_of_mem he'] at h
        exact (Option.some.inj h).symm
      · exact absurd hs (hnone _ he)
    · exact fun hm => .inl ⟨_, he, hs, hm⟩
  | none =>
    have hnone : ∀ e ∈ table, ¬SameLetters name e.1 := by
      intro e he hs
      rw [(sameLetters_iff he).1 hs, lookup_of_mem he] at h
      cases h
    constructor
    · rintro (⟨e, he, hs, -⟩ | ⟨-, hn⟩)
      · exact absurd hs (hnone e he)
      · exact hn
    · exact fun hn => .inr ⟨hnone, hn⟩

theorem level_of_format {name : String} (h : upper name = "BASIC_FORMAT") :
    level name = .error (.unknownLevel (Text.quoted "%(levelname)s:%(name)s:%(message)s")) := by
  have hl : table.lookup "BASIC_FORMAT" = none := by decide +kernel
  simp only [level, h, hl, if_pos]

theorem level_of_styles {name : String} (h : upper name = "_STYLES") : level name = .error (.noLevel layouts) := by
  have hl : table.lookup "_STYLES" = none := by decide +kernel
  have hne : "_STYLES" ≠ "BASIC_FORMAT" := by decide
  simp only [level, h, hl, if_neg hne, if_pos]

theorem level_eq_ok_iff {name : String} {n : Int} :
    level name = .ok n ↔ StandsFor name n ∧ upper name ∉ layoutNames := by
  rw [standsFor_iff]
  by_cases hb : upper name = "BASIC_FORMAT"
  · simp [level_of_format hb, layoutNames, hb]
  by_cases hs : upper name = "_STYLES"
  · simp [level_of_styles hs, layoutNames, hs]
  have hl : upper name ∉ layoutNames := by simp [layoutNames, hb, hs]
  simp only [level, if_neg hb, if_neg hs, hl, not_false_eq_true, and_true]
  cases table.lookup (upper name) <;> simp [Severity.level]

end LevelName

namespace LogRequest

open LevelName

/-- The request that asks for the same log at INFO. -/
def atInfo (r : LogRequest) : LogRequest := { r with level := "INFO" }

/-- Whatever files there are, the request leads to the log that it asks for at level `n`: the files and the faults are
those of the request at INFO, and the log and each of its handlers have the level `n`. -/
structure SettlesAt (r : LogRequest) (n : Int) : Prop where
  tree : ∀ t, (r.plan t).1 = (r.atInfo.plan t).1
  fault : ∀ t f, (r.plan t).2 = .error f ↔ (r.atInfo.plan t).2 = .error f
  level : ∀ t p, (r.plan t).2 = .ok p → p.level = n
  handlers : ∀ t p, (r.plan t).2 = .ok p → ∀ h ∈ p.handlers, h.2 = n

theorem openFile_congr (r : LogRequest) (m n : Int) (t : FileTree) :
    r.openFile n t = ((r.openFile m t).1, (r.openFile m t).2.map fun p => { p with level := n }) := by
  simp only [openFile]
  split
  · rcases t.makeDirectories r.directory with ⟨t', _ | f⟩
    · simp only
      cases t'.openAppend r.file.toText <;> rfl
    · rfl
  · rfl

theorem openFile_console {r : LogRequest} (hr : r.toFile = false) (n : Int) (t : FileTree) :
    r.openFile n t = (t, .ok ⟨n, none⟩) := by
  simp [openFile, hr]

theorem handlers_level {p : LogPlan} {h : String × Int} (hm : h ∈ p.handlers) : h.2 = p.level := by
  obtain rfl | hm := List.mem_cons.1 hm
  · rfl
  · obtain ⟨f, -, rfl⟩ : ∃ f, p.file = some f ∧ ("RotatingFileHandler", p.level) = h := by simpa using hm
    rfl

theorem plan_of_level {r : LogRequest} {n : Int} (hl : LevelName.level r.level = .ok n) (t : FileTree) :
    r.plan t = r.openFile n t := by
  rw [plan, hl]

theorem plan_atInfo (r : LogRequest) (t : FileTree) : r.atInfo.plan t = r.openFile Severity.info.level t := by
  have hl : LevelName.level "INFO" = .ok Severity.info.level := level_eq_ok_iff.2 (by decide +kernel)
  exact plan_of_level (r := r.atInfo) hl t

theorem settlesAt_of_level {r : LogRequest} {n : Int} (hl : LevelName.level r.level = .ok n) : r.SettlesAt n := by
  have hplan (t : FileTree) : r.plan t =
      ((r.atInfo.plan t).1, (r.atInfo.plan t).2.map fun p => { p with level := n }) := by
    rw [plan_of_level hl, plan_atInfo]
    exact openFile_congr r _ n t
  have hlevel (t : FileTree) (p : LogPlan) (hp : (r.plan t).2 = .ok p) : p.level = n := by
    rw [hplan] at hp
    cases h : (r.atInfo.plan t).2 with
    | error f => simp [h, Except.map] at hp
    | ok q =>
      simp only [h, Except.map, Except.ok.injEq] at hp
      rw [← hp]
  refine ⟨fun t => by rw [hplan], fun t f => ?_, hlevel, fun t p hp h hm => ?_⟩
  · rw [hplan]
    cases (r.atInfo.plan t).2 <;> simp [Except.map]
  · rw [handlers_level hm, hlevel t p hp]

theorem plan_of_level_error {r : LogRequest} {f : Fault} (hl : LevelName.level r.level = .error f) (t : FileTree) :
    r.plan t = (t, .error f) := by
  rw [plan, hl]

/-- All requests that name a level settle at `n` exactly when `n` is the level that the name stands for and the name
is not that of a layout. With the name of a layout each of them is refused and leaves the files as they are. -/
theorem settles_iff (name : String) (n : Int) :
    ((∀ r : LogRequest, r.level = name → r.SettlesAt n) ↔ StandsFor name n ∧ upper name ∉ layoutNames) ∧
      (upper name = "BASIC_FORMAT" → ∀ r : LogRequest, r.level = name → ∀ t, r.plan t =
        (t, .error (.unknownLevel (Text.quoted "%(levelname)s:%(name)s:%(message)s")))) ∧
      (upper name = "_STYLES" → ∀ r : LogRequest, r.level = name → ∀ t, r.plan t =
        (t, .error (.noLevel layouts))) := by
  refine ⟨⟨fun h => ?_, ?_⟩, ?_, ?_⟩
  · -- a request for the console alone settles if its name is a level, since no file can be in the way
    let r : LogRequest := { level := name, toFile := false }
    have hs : r.SettlesAt n := h r rfl
    cases hl : LevelName.level r.level with
    | error f =>
      have hf : (r.plan {}).2 = .error f := by rw [plan_of_level_error hl]
      rw [hs.fault, plan_atInfo, openFile_console rfl] at hf
      cases hf
    | ok m =>
      have hp : (r.plan {}).2 = .ok ⟨m, none⟩ := by rw [plan_of_level hl, openFile_console rfl]
      obtain rfl : m = n := hs.level _ _ hp
      exact level_eq_ok_iff.1 hl
  · rintro h r rfl
    exact settlesAt_of_level (level_eq_ok_iff.2 h)
  · rintro h r rfl
    exact plan_of_level_error (level_of_format h)
  · rintro h r rfl
    exact plan_of_level_error (level_of_styles h)

theorem settles_warn : SettlesAt { level := "wArn" } 30 ∧ SettlesAt { level := "verbose", toFile := false } 20 :=
  ⟨(settles_iff "wArn" 30).1.2 (by decide +kernel) _ rfl, (settles_iff "verbose" 20).1.2 (by decide +kernel) _ rfl⟩

/-- The name of the layout of log lines is no level and falls back to nothing. -/
theorem layout_not_settled :
    let r : LogRequest := { level := "basic_format", toFile := false }
    StandsFor r.level 20 ∧
      r.plan {} = ({}, .error (.unknownLevel (Text.quoted "%(levelname)s:%(name)s:%(message)s"))) ∧
      ¬r.SettlesAt 20 := by
  intro r
  have hplan : r.plan {} = ({}, .error (.unknownLevel (Text.quoted "%(levelname)s:%(name)s:%(message)s"))) := by
    exact plan_of_level_error (level_of_format (by decide +kernel)) {}
  refine ⟨by decide +kernel, hplan, fun hs => ?_⟩
  have hf := (hs.fault {} _).1 (by rw [hplan])
  rw [plan_atInfo, openFile_console rfl] at hf
  cases hf

end LogRequest
end InertialRelay
