import InertialRelay.Validation.Rule

/-!
# What rules accept

When the pieces that rules are made of give a value: the application of checked values to each other, a field with a
default, and a record.
-/

namespace InertialRelay

variable {α β : Type}

namespace Checked
variable {x : Checked α} {a : α} {b : β}

@[simp]
theorem map_ok (f : α → β) (a : α) : f <$> (ok a : Checked α) = ok (f a) := rfl

@[simp]
theorem ok_seq_ok (f : α → β) (a : α) : (ok f : Checked (α → β)) <*> ok a = ok (f a) := rfl

@[simp]
theorem within_ok (s : Step) (a : α) : (ok a : Checked α).within s = ok a := rfl

theorem map_eq_ok {f : α → β} : f <$> x = ok b ↔ ∃ a, x = ok a ∧ f a = b := by
  rcases x with a | is
  · simp
  · exact ⟨nofun, fun ⟨_, h, _⟩ => nomatch h⟩

theorem seq_eq_ok {g : Checked (α → β)} : g <*> x = ok b ↔ ∃ f a, g = ok f ∧ x = ok a ∧ f a = b := by
  rcases g with f | is
  · rcases x with a | js
    · simp
    · exact ⟨nofun, fun ⟨_, _, _, h, _⟩ => nomatch h⟩
  · exact ⟨nofun, fun ⟨_, _, h, _⟩ => nomatch h⟩

theorem within_eq_ok {s : Step} : x.within s = ok a ↔ x = ok a := by
  rcases x with a | is
  · rfl
  · exact ⟨nofun, nofun⟩

end Checked

namespace Rule
variable {rule : Rule α} {title : String} {d : Data} {a default : α}

theorem model_eq_ok {read : List (String × Data) → Checked α} :
    model title read d = .ok a ↔ ∃ es, d = .map es ∧ read es = .ok a := by
  cases d with
  | map es =>
    constructor
    · exact fun h => ⟨es, rfl, h⟩
    · rintro ⟨_, hes, h⟩
      cases hes
      exact h
  | _ => exact ⟨nofun, fun ⟨_, h, _⟩ => nomatch h⟩

theorem validate_eq_ok : rule.validate title d = .ok a ↔ rule d = .ok a := by
  rw [validate]
  cases rule d <;> simp

theorem validate_eq_error {e : Invalid} :
    rule.validate title d = .error e ↔ ∃ is, rule d = .failed is ∧ e = ⟨title, is⟩ := by
  rw [validate]
  cases rule d <;> simp [eq_comm]

namespace Fields
variable {es : List (String × Data)} {name : String}

theorem orElse_eq_ok :
    orElse es name rule default = .ok a ↔
      (∃ d, Data.field? es name = some d ∧ rule d = .ok a) ∨ (Data.field? es name = none ∧ default = a) := by
  rw [orElse]
  cases hd : Data.field? es name with
  | none => simp
  | some d => simp [Checked.within_eq_ok]

end Fields

end Rule

end InertialRelay
