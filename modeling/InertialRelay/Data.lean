/-!
# Untyped data

Values as a configuration document or a published record holds them: scalars, sequences and mappings
with text keys. In a mapping that has a key more than once, the last entry counts.
-/

namespace InertialRelay

inductive Data where
  | null
  | bool (b : Bool)
  | int (n : Int)
  | real (x : Float)
  | str (s : String)
  /-- A date or a time of day, which no field of a record takes. -/
  | date
  | list (items : List Data)
  /-- A sequence whose length is part of its type. -/
  | tuple (items : List Data)
  | map (entries : List (String × Data))
  deriving Repr, Inhabited

namespace Data

/-- The last entry with a given key. -/
def field? (entries : List (String × Data)) (key : String) : Option Data :=
  entries.foldl (fun found e => if e.1 = key then some e.2 else found) none

/-- Null, false, zero, and what is empty. -/
def isVoid : Data → Bool
  | null => true
  | bool b => !b
  | int n => n == 0
  | real x => x == 0
  | str s => s.isEmpty
  | date => false
  | list items | tuple items => items.isEmpty
  | map entries => entries.isEmpty

end Data

end InertialRelay
