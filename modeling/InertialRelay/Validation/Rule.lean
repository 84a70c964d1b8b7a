import InertialRelay.Binary64.Exact
import InertialRelay.Data
import InertialRelay.Text.Numeral
import InertialRelay.Validation.Issue

/-!
# Rules from data to values

A rule turns data into a value or tells everything that is wrong with it. Rules for scalars are
lenient: they take numbers written as text, and whole floats as integers. A rule for a record takes
a mapping and puts together what the rules of its fields say, in the order of the fields.
-/

namespace InertialRelay

/-- A value, or all issues that prevent one. -/
inductive Checked (α : Type) where
  | ok (value : α)
  | failed (issues : List Issue)
  deriving Repr

namespace Checked

variable {α β : Type}

def issues : Checked α → List Issue
  | ok _ => []
  | failed is => is

def map (f : α → β) : Checked α → Checked β
  | ok a => ok (f a)
  | failed is => failed is

/-- Applies one checked value to another; the issues of both count. -/
def seq : Checked (α → β) → Checked α → Checked β
  | ok f, ok a => ok (f a)
  | f, a => failed (f.issues ++ a.issues)

/-- The same outcome, seen from the value around it. -/
def within (s : Step) : Checked α → Checked α
  | ok a => ok a
  | failed is => failed (is.map (Issue.within s))

instance : Functor Checked where
  map := map

instance : Seq Checked where
  seq f a := seq f (a ())

instance : Pure Checked where
  pure := ok

def fail (c : Cause) : Checked α := failed [{ loc := [], cause := c }]

end Checked

abbrev Rule (α : Type) := Data → Checked α

namespace Rule

variable {α : Type}

/-- Numbers, truth values as 1 and 0, and texts that write a decimal. -/
def float : Rule Float
  | .real x => .ok x
  | .int n =>
    match Binary64.ofInt? n with
    | some x => .ok x
    | none => .fail .notFloat
  | .bool b => .ok (if b then 1 else 0)
  | .str s =>
    match Text.Numeral.looseFloat? s.toList with
    | some x => .ok x
    | none => .fail .unreadableFloat
  | _ => .fail .notFloat

/-- Whether an integer fits into 64 bits. -/
def isWord (n : Int) : Bool := -Binary64.twoTo 63 ≤ n && n < Binary64.twoTo 63

/-- A float without fraction, unless it is beyond 64 bits. -/
def intOfFloat (x : Float) : Checked Int :=
  match Binary64.trunc? x with
  | none => .fail .notFinite
  | some n =>
    if Binary64.compareInt x n != some .eq then .fail .fractional
    else if n.natAbs < Binary64.twoTo 63 then .ok n
    else .fail .intTooLong

/-- Integers, truth values as 1 and 0, whole floats, and texts that write an integer. -/
def int : Rule Int
  | .int n => .ok n
  | .bool b => .ok (if b then 1 else 0)
  | .real x => intOfFloat x
  | .str s =>
    match Text.Numeral.looseInt s.toList with
    | .value n => .ok n
    | .tooLong _ => .fail .intTooLong
    | .unreadable => .fail .unreadableInt
  | _ => .fail .notInt

/-- The truth value that a word stands for, in any case. -/
def truth? (s : String) : Option Bool :=
  let word := String.ofList (s.toList.map Char.toLower)
  if ["0", "off", "f", "false", "n", "no"].contains word then some false
  else if ["1", "on", "t", "true", "y", "yes"].contains word then some true
  else none

/-- The truth value of an integer of 64 bits. -/
def boolOfInt (n : Int) : Checked Bool :=
  if n = 0 then .ok false
  else if n = 1 then .ok true
  else if isWord n then .fail .unreadableBool
  else .fail .notBool

/-- Truth values, the numbers 1 and 0, and words that stand for a truth value. -/
def bool : Rule Bool
  | .bool b => .ok b
  | .int n => boolOfInt n
  | .real x =>
    match intOfFloat x with
    | .ok n => boolOfInt n
    | .failed _ => .fail .notBool
  | .str s =>
    match truth? s with
    | some b => .ok b
    | none => .fail .unreadableBool
  | _ => .fail .notBool

def text : Rule String
  | .str s => .ok s
  | _ => .fail .notText

/-- What `rule` takes, or null. -/
def optional (rule : Rule α) : Rule (Option α)
  | .null => .ok none
  | d => some <$> rule d

/-- The first `n` items of a sequence, whose positions count from `i`. -/
def items (rule : Rule α) : (n i : Nat) → List Data → Checked { as : List α // as.length = n }
  | 0, _, _ => .ok ⟨[], rfl⟩
  | n + 1, i, ds =>
    let head : Checked α := match ds with
      | [] => .fail .missing
      | d :: _ => rule d
    (fun a as => ⟨a :: as.1, congrArg (· + 1) as.2⟩) <$> head.within (.index i) <*>
      items rule n (i + 1) (ds.drop 1)

/-- A sequence of exactly `n` items. -/
def tuple (n : Nat) (rule : Rule α) : Rule { as : List α // as.length = n }
  | .list ds | .tuple ds =>
    if n < ds.length then .fail (.tooLong n ds.length) else items rule n 0 ds
  | _ => .fail .notTuple

/-- A mapping, read by its fields. -/
def model (title : String) (read : List (String × Data) → Checked α) : Rule α
  | .map entries => read entries
  | _ => .fail (.notModel title)

end Rule

namespace Rule.Fields

variable {α : Type}

/-- A field that must be present. -/
def required (entries : List (String × Data)) (name : String) (rule : Rule α) : Checked α :=
  match Data.field? entries name with
  | some d => (rule d).within (.key name)
  | none => (Checked.fail .missing).within (.key name)

/-- A field that has a value of its own when it is absent. -/
def orElse (entries : List (String × Data)) (name : String) (rule : Rule α) (default : α) :
    Checked α :=
  match Data.field? entries name with
  | some d => (rule d).within (.key name)
  | none => .ok default

end Rule.Fields

/-- Applies a rule to outermost data; `title` names the record in the complaint. -/
def Rule.validate {α : Type} (title : String) (rule : Rule α) (d : Data) : Except Invalid α :=
  match rule d with
  | .ok a => .ok a
  | .failed is => .error ⟨title, is⟩

end InertialRelay
