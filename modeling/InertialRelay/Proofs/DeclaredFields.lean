import InertialRelay.Proofs.Rules
import Mathlib.Data.List.Basic
import Mathlib.Data.List.Forall2

/-!
# Declared fields

A model is read field by field. `DeclaredField` says what is declared of one field, and what a mapping says about it
apart from all the others: whether it fails, with which issues, and which value it gives. `Fieldwise` is a rule whose
outcome is put together from just that, in the order of the declarations. So nothing else in a mapping matters: two
mappings that hold alike data under the declared keys are read alike (`Fieldwise.congr`).
-/

namespace InertialRelay

variable {α β γ : Type}

namespace Checked
variable {x : Checked α}

/-- Whether there is no value. -/
def Fails (x : Checked α) : Prop := ∃ is, x = .failed is

theorem not_fails_ok (a : α) : ¬(ok a).Fails := nofun

theorem failed_iff {is : List Issue} : x = .failed is ↔ x.Fails ∧ is = x.issues := by
  cases x with
  | ok a => exact ⟨nofun, fun h => absurd h.1 (not_fails_ok a)⟩
  | failed js =>
    constructor
    · rintro ⟨⟩
      exact ⟨⟨is, rfl⟩, rfl⟩
    · rintro ⟨-, rfl⟩
      rfl

theorem fails_map (f : α → β) : (f <$> x).Fails ↔ x.Fails := by
  cases x with
  | ok a => exact iff_of_false nofun nofun
  | failed is => exact iff_of_true ⟨is, rfl⟩ ⟨is, rfl⟩

theorem issues_map (f : α → β) : (f <$> x).issues = x.issues := by cases x <;> rfl

theorem fails_seq (g : Checked (α → β)) : (g <*> x).Fails ↔ g.Fails ∨ x.Fails := by
  cases g with
  | failed is => exact iff_of_true ⟨_, rfl⟩ (.inl ⟨is, rfl⟩)
  | ok f =>
    cases x with
    | failed is => exact iff_of_true ⟨_, rfl⟩ (.inr ⟨is, rfl⟩)
    | ok a => exact iff_of_false nofun fun h => h.elim nofun nofun

theorem issues_seq (g : Checked (α → β)) : (g <*> x).issues = g.issues ++ x.issues := by
  cases g <;> cases x <;> rfl

theorem fails_within (s : Step) : (x.within s).Fails ↔ x.Fails := by
  cases x with
  | ok a => exact Iff.rfl
  | failed is => exact iff_of_true ⟨_, rfl⟩ ⟨is, rfl⟩

theorem issues_within (s : Step) : (x.within s).issues = x.issues.map (Issue.within s) := by cases x <;> rfl

end Checked

/-- What is declared of one field of a model: its key, the rule for the data under the key, the value that it has
otherwise unless it is required, and where the model keeps it. Data that are alike to a field are the same to its
rule. -/
structure DeclaredField (γ : Type) where
  Value : Type
  key : String
  rule : Rule Value
  default : Option Value
  get : γ → Value
  Alike : Data → Data → Prop
  rule_congr : ∀ {d d' : Data}, Alike d d' → rule d = rule d'

namespace DeclaredField

/-- A field whose data is taken as a whole. -/
def whole (key : String) (rule : Rule α) (default : Option α) (get : γ → α) : DeclaredField γ :=
  ⟨α, key, rule, default, get, Eq, congrArg rule⟩

/-- Whether the model `a` has in a field what a mapping says about it. -/
def Gives (f : DeclaredField γ) (es : List (String × Data)) (a : γ) : Prop :=
  match Data.field? es f.key with
  | some d => f.rule d = .ok (f.get a)
  | none => f.default = some (f.get a)

/-- Whether a mapping has nothing that a field could be read from. -/
def Fails (f : DeclaredField γ) (es : List (String × Data)) : Prop :=
  match Data.field? es f.key with
  | some d => (f.rule d).Fails
  | none => f.default = none

/-- The issues of a field: those that its own data has, under its key, or one where a required field is absent. -/
def issues (f : DeclaredField γ) (es : List (String × Data)) : List Issue :=
  match Data.field? es f.key with
  | some d => (f.rule d).issues.map (Issue.within (.key f.key))
  | none => if f.default.isSome then [] else [{ loc := [.key f.key], cause := .missing }]

/-- A field as rules read it. -/
def read (f : DeclaredField γ) (es : List (String × Data)) : Checked f.Value :=
  match f.default with
  | some a => Rule.Fields.orElse es f.key f.rule a
  | none => Rule.Fields.required es f.key f.rule

variable {f : DeclaredField γ} {es es' : List (String × Data)}

theorem read_of_some {d : Data} (h : Data.field? es f.key = some d) :
    f.read es = (f.rule d).within (.key f.key) := by
  unfold read
  split <;> simp [Rule.Fields.orElse, Rule.Fields.required, h]

theorem read_of_default {a : f.Value} (h : Data.field? es f.key = none) (ha : f.default = some a) :
    f.read es = .ok a := by
  simp [read, ha, Rule.Fields.orElse, h]

theorem read_of_absent (h : Data.field? es f.key = none) (hn : f.default = none) :
    f.read es = .failed [{ loc := [.key f.key], cause := .missing }] := by
  simp only [read, hn, Rule.Fields.required, h]
  rfl

theorem read_eq_ok_iff {a : γ} : f.read es = .ok (f.get a) ↔ f.Gives es a := by
  rw [Gives]
  cases h : Data.field? es f.key with
  | some d => rw [read_of_some h, Checked.within_eq_ok]
  | none =>
    cases hd : f.default with
    | some b => simp [read_of_default h hd]
    | none => simp [read_of_absent h hd]

theorem read_fails_iff : (f.read es).Fails ↔ f.Fails es := by
  rw [Fails]
  cases h : Data.field? es f.key with
  | some d => rw [read_of_some h, Checked.fails_within]
  | none =>
    cases hd : f.default with
    | some b => simp [read_of_default h hd, Checked.not_fails_ok]
    | none => simp [read_of_absent h hd, Checked.Fails]

theorem read_issues : (f.read es).issues = f.issues es := by
  rw [issues]
  cases h : Data.field? es f.key with
  | some d => rw [read_of_some h, Checked.issues_within]
  | none =>
    cases hd : f.default with
    | some b =>
      rw [read_of_default h hd]
      rfl
    | none =>
      rw [read_of_absent h hd]
      rfl

theorem read_congr (h : Option.Rel f.Alike (Data.field? es f.key) (Data.field? es' f.key)) :
    f.read es = f.read es' := by
  cases hd : Data.field? es f.key with
  | none =>
    rw [hd] at h
    cases hd' : Data.field? es' f.key with
    | some d' => rw [hd'] at h; cases h
    | none =>
      cases ha : f.default with
      | some a => rw [read_of_default hd ha, read_of_default hd' ha]
      | none => rw [read_of_absent hd ha, read_of_absent hd' ha]
  | some d =>
    rw [hd] at h
    cases hd' : Data.field? es' f.key with
    | none => rw [hd'] at h; cases h
    | some d' =>
      rw [hd'] at h
      cases h with
      | some halike => rw [read_of_some hd, read_of_some hd', f.rule_congr halike]

end DeclaredField

/-- Data that is the same to a model with the given fields: mappings that hold, under each declared key, both nothing
or both something that is alike to the field. -/
inductive Alike (fields : List (DeclaredField γ)) : Data → Data → Prop
  | refl (d : Data) : Alike fields d d
  | mappings {es es' : List (String × Data)}
      (h : ∀ f ∈ fields, Option.Rel f.Alike (Data.field? es f.key) (Data.field? es' f.key)) :
      Alike fields (.map es) (.map es')

/-- How a rule gathers fields: `x` comes of applying a constructor to them one by one, as `build` does with the fields
of a model. -/
inductive Gathers (es : List (String × Data)) :
    {β : Type} → List (DeclaredField γ) → Checked β → (γ → β) → Prop
  | first {β : Type} (f : DeclaredField γ) (k : f.Value → β) : Gathers es [f] (k <$> f.read es) fun a => k (f.get a)
  | next {β : Type} {fields : List (DeclaredField γ)} (f : DeclaredField γ) {x : Checked (f.Value → β)}
      {build : γ → f.Value → β} (h : Gathers es fields x build) :
      Gathers es (fields ++ [f]) (x <*> f.read es) fun a => build a (f.get a)

namespace Gathers
variable {es : List (String × Data)} {fields : List (DeclaredField γ)} {x : Checked β} {build : γ → β}

theorem fails_iff (h : Gathers es fields x build) : x.Fails ↔ ∃ f ∈ fields, f.Fails es := by
  induction h with
  | first f k => simp [Checked.fails_map, DeclaredField.read_fails_iff]
  | next f _ ih => simp [Checked.fails_seq, DeclaredField.read_fails_iff, ih, or_and_right, exists_or]

theorem issues_eq (h : Gathers es fields x build) : x.issues = fields.flatMap (·.issues es) := by
  induction h with
  | first f k => simp [Checked.issues_map, DeclaredField.read_issues]
  | next f _ ih => simp [Checked.issues_seq, DeclaredField.read_issues, ih]

theorem eq_ok (h : Gathers es fields x build) {a : γ} (ha : ∀ f ∈ fields, f.Gives es a) : x = .ok (build a) := by
  induction h with
  | first f k => rw [DeclaredField.read_eq_ok_iff.2 (ha f List.mem_cons_self), Checked.map_ok]
  | next f _ ih =>
    rw [ih fun g hg => ha g (List.mem_append_left _ hg),
      DeclaredField.read_eq_ok_iff.2 (ha f (List.mem_append_right _ List.mem_cons_self)), Checked.ok_seq_ok]

end Gathers

namespace Rule

theorem model_of_not_map {title : String} {read : List (String × Data) → Checked α} {d : Data}
    (h : ∀ es, d ≠ .map es) : model title read d = .failed [{ loc := [], cause := .notModel title }] := by
  cases d with
  | map es => exact absurd rfl (h es)
  | _ => rfl

end Rule

/-- A rule for a model with the given fields, which is called `title` where something else stands in its place. -/
structure Fieldwise (title : String) (fields : List (DeclaredField γ)) (rule : Rule γ) : Prop where
  gathers : ∀ es, Gathers es fields (rule (.map es)) id
  gives : ∀ {es a}, rule (.map es) = .ok a → ∀ f ∈ fields, f.read es = .ok (f.get a)
  elsewhere : ∀ d, (∀ es, d ≠ .map es) → rule d = .failed [{ loc := [], cause := .notModel title }]

namespace Fieldwise
variable {title : String} {fields : List (DeclaredField γ)} {rule : Rule γ} {es : List (String × Data)} {a : γ}

theorem eq_ok_iff (h : Fieldwise title fields rule) : rule (.map es) = .ok a ↔ ∀ f ∈ fields, f.Gives es a :=
  ⟨fun ha f hf => DeclaredField.read_eq_ok_iff.1 (h.gives ha f hf), (h.gathers es).eq_ok⟩

theorem eq_failed_iff (h : Fieldwise title fields rule) {is : List Issue} :
    rule (.map es) = .failed is ↔ (∃ f ∈ fields, f.Fails es) ∧ is = fields.flatMap (·.issues es) := by
  rw [Checked.failed_iff, (h.gathers es).fails_iff, (h.gathers es).issues_eq]

theorem congr (h : Fieldwise title fields rule) {d d' : Data} (hd : Alike fields d d') : rule d = rule d' := by
  cases hd with
  | refl => rfl
  | @mappings es es' hes =>
    have hread : ∀ f ∈ fields, f.read es = f.read es' := fun f hf => DeclaredField.read_congr (hes f hf)
    cases hr : rule (.map es) with
    | ok a =>
      refine (h.eq_ok_iff.2 fun f hf => ?_).symm
      rw [← DeclaredField.read_eq_ok_iff, ← hread f hf]
      exact h.gives hr f hf
    | failed is =>
      obtain ⟨⟨f, hf, hfails⟩, rfl⟩ := h.eq_failed_iff.1 hr
      refine (h.eq_failed_iff.2 ⟨⟨f, hf, ?_⟩, List.flatMap_congr fun f hf => ?_⟩).symm
      · rwa [← DeclaredField.read_fails_iff, ← hread f hf, DeclaredField.read_fails_iff]
      · rw [← DeclaredField.read_issues, hread f hf, DeclaredField.read_issues]

/-- A field whose data is read by the rule of another model. -/
def field (h : Fieldwise title fields rule) {δ : Type} (key : String) (default : Option γ) (get : δ → γ) :
    DeclaredField δ :=
  ⟨γ, key, rule, default, get, Alike fields, h.congr⟩

end Fieldwise

/-! ### Sequences -/

namespace Rule
variable {rule : Rule α} {n i : Nat} {ds : List Data}

/-- The item at a position of a sequence, which may be missing. -/
def item (rule : Rule α) (ds : List Data) (k : Nat) : Checked α :=
  match ds[k]? with
  | some d => rule d
  | none => .fail .missing

theorem item_succ (rule : Rule α) (ds : List Data) (k : Nat) : item rule ds (k + 1) = item rule (ds.drop 1) k := by
  rw [item, item, List.getElem?_drop, Nat.add_comm]

theorem items_succ (rule : Rule α) (n i : Nat) (ds : List Data) :
    items rule (n + 1) i ds = (fun a as => ⟨a :: as.1, congrArg (· + 1) as.2⟩) <$>
      (item rule ds 0).within (.index i) <*> items rule n (i + 1) (ds.drop 1) := by
  cases ds <;> rfl

theorem items_fails_iff : (items rule n i ds).Fails ↔ ∃ k < n, (item rule ds k).Fails := by
  induction n generalizing i ds with
  | zero => exact iff_of_false nofun nofun
  | succ n ih =>
    rw [items_succ, Checked.fails_seq, Checked.fails_map, Checked.fails_within, ih, Nat.exists_lt_succ_left]
    simp only [item_succ]

theorem items_issues : (items rule n i ds).issues =
    (List.range n).flatMap fun k => (item rule ds k).issues.map (Issue.within (.index (i + k))) := by
  induction n generalizing i ds with
  | zero => rfl
  | succ n ih =>
    rw [items_succ, Checked.issues_seq, Checked.issues_map, Checked.issues_within, ih,
      List.range_succ_eq_map, List.flatMap_cons, List.flatMap_map]
    simp only [item_succ, Nat.succ_eq_add_one, Nat.add_zero, Nat.add_comm, Nat.add_left_comm]

theorem items_eq_ok {as : { as : List α // as.length = n }} (hn : ds.length ≤ n) :
    items rule n i ds = .ok as ↔ List.Forall₂ (fun d a => rule d = .ok a) ds as.1 := by
  induction n generalizing i ds with
  | zero =>
    obtain ⟨as, has⟩ := as
    obtain rfl := List.length_eq_zero_iff.1 has
    obtain rfl := List.length_eq_zero_iff.1 (Nat.le_zero.1 hn)
    exact iff_of_true rfl .nil
  | succ n ih =>
    obtain ⟨as, has⟩ := as
    obtain ⟨a, as, rfl⟩ := List.exists_cons_of_length_eq_add_one has
    rw [items_succ]
    simp only [Checked.seq_eq_ok, Checked.map_eq_ok, Checked.within_eq_ok]
    cases ds with
    -- a sequence that ends early gives no value, as its next item is missing
    | nil => exact iff_of_false (fun ⟨_, _, ⟨_, h, _⟩, _⟩ => nomatch h) nofun
    | cons d ds =>
      have hlen : as.length = n := Nat.succ.inj has
      have hih : items rule n (i + 1) ds = .ok ⟨as, hlen⟩ ↔ List.Forall₂ (fun d a => rule d = .ok a) ds as :=
        ih (Nat.le_of_succ_le_succ hn)
      rw [List.forall₂_cons, ← hih]
      constructor
      · rintro ⟨_, bs, ⟨b, hb, rfl⟩, hbs, h⟩
        obtain ⟨rfl, rfl⟩ := List.cons.inj (congrArg Subtype.val h)
        exact ⟨hb, hbs⟩
      · rintro ⟨ha, has⟩
        exact ⟨_, ⟨as, hlen⟩, ⟨a, ha, rfl⟩, has, rfl⟩

/-- A rule that reads a sequence of `n` items, which are the `entries` of what it gives, each by `rule`. Too many items
are one issue; otherwise each item has its own issues under its position, and where there is no item, that is one. -/
structure Itemwise (n : Nat) (rule : Rule α) (whole : Rule β) (entries : β → List α) : Prop where
  eq_ok_iff : ∀ {d ds b}, d = .list ds ∨ d = .tuple ds →
    (whole d = .ok b ↔ List.Forall₂ (fun d a => rule d = .ok a) ds (entries b))
  eq_failed_iff : ∀ {d ds is}, d = .list ds ∨ d = .tuple ds →
    (whole d = .failed is ↔
      (n < ds.length ∧ is = [{ loc := [], cause := .tooLong n ds.length }]) ∨
        (ds.length ≤ n ∧ (∃ k < n, (item rule ds k).Fails) ∧
          is = (List.range n).flatMap fun k => (item rule ds k).issues.map (Issue.within (.index k))))
  elsewhere : ∀ d, (∀ ds, d ≠ .list ds ∧ d ≠ .tuple ds) → whole d = .failed [{ loc := [], cause := .notTuple }]

theorem tuple_of_sequence {d : Data} (hd : d = .list ds ∨ d = .tuple ds) :
    tuple n rule d = if n < ds.length then .fail (.tooLong n ds.length) else items rule n 0 ds := by
  rcases hd with rfl | rfl <;> rfl

theorem tuple_itemwise (n : Nat) (rule : Rule α) : Itemwise n rule (tuple n rule) Subtype.val where
  eq_ok_iff {d ds b} hd := by
    rw [tuple_of_sequence hd]
    split
    · next hlong =>
      refine iff_of_false nofun fun h => absurd hlong (Nat.not_lt.2 (Nat.le_of_eq ?_))
      exact h.length_eq.trans b.2
    · next hfits => exact items_eq_ok (Nat.le_of_not_lt hfits)
  eq_failed_iff {d ds is} hd := by
    rw [tuple_of_sequence hd]
    split
    · next hlong => simp [hlong, Nat.not_le.2 hlong, Checked.fail, eq_comm]
    · next hfits =>
      rw [Checked.failed_iff, items_fails_iff, items_issues]
      simp [hfits, Nat.le_of_not_lt hfits]
  elsewhere d h := by
    cases d with
    | list ds => exact absurd rfl (h ds).1
    | tuple ds => exact absurd rfl (h ds).2
    | _ => rfl

end Rule

end InertialRelay
