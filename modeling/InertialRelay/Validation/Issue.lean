/-!
# Validation issues

Why a value was not accepted as a record, and where in the value. The wording is in one place, also
that of the report on all issues of a value.
-/

namespace InertialRelay

/-- One step on the way from the outermost value to a part of it. -/
inductive Step where
  | key (name : String)
  | index (i : Nat)
  deriving Repr, DecidableEq

def Step.text : Step → String
  | key name => name
  | index i => toString i

/-- Why a part of a value was not accepted. -/
inductive Cause where
  | missing
  | notModel (title : String)
  | notFloat
  | unreadableFloat
  | notInt
  | unreadableInt
  | fractional
  | notFinite
  | intTooLong
  | notBool
  | unreadableBool
  | notText
  | notTuple
  | tooLong (limit actual : Nat)
  deriving Repr, DecidableEq

namespace Cause

/-- The short name of a cause. -/
def code : Cause → String
  | missing => "missing"
  | notModel _ => "model_type"
  | notFloat => "float_type"
  | unreadableFloat => "float_parsing"
  | notInt => "int_type"
  | unreadableInt => "int_parsing"
  | fractional => "int_from_float"
  | notFinite => "finite_number"
  | intTooLong => "int_parsing_size"
  | notBool => "bool_type"
  | unreadableBool => "bool_parsing"
  | notText => "string_type"
  | notTuple => "tuple_type"
  | tooLong _ _ => "too_long"

def message : Cause → String
  | missing => "Field required"
  | notModel title => "Input should be a valid dictionary or instance of " ++ title
  | notFloat => "Input should be a valid number"
  | unreadableFloat => "Input should be a valid number, unable to parse string as a number"
  | notInt => "Input should be a valid integer"
  | unreadableInt => "Input should be a valid integer, unable to parse string as an integer"
  | fractional => "Input should be a valid integer, got a number with a fractional part"
  | notFinite => "Input should be a finite number"
  | intTooLong => "Unable to parse input string as an integer, exceeded maximum size"
  | notBool => "Input should be a valid boolean"
  | unreadableBool => "Input should be a valid boolean, unable to interpret input"
  | notText => "Input should be a valid string"
  | notTuple => "Input should be a valid tuple"
  | tooLong limit actual =>
    "Tuple should have at most " ++ toString limit ++ " items after validation, not " ++
      toString actual

end Cause

/-- A refused value as a report shows it. -/
structure Refused where
  text : String
  typeName : String
  deriving Repr, DecidableEq

namespace Refused

/-- The most characters that a report shows of a value. -/
def limit : Nat := 50

/-- The middle of a long value is left out. -/
def shown (v : Refused) : String :=
  if v.text.length ≤ limit then v.text
  else
    let cs := v.text.toList
    String.ofList (cs.take 25) ++ "..." ++ String.ofList (cs.drop (cs.length - 24))

end Refused

/-- A cause and the place where it was found. -/
structure Issue where
  loc : List Step
  cause : Cause
  /-- The value at that place, where a report may have to show it. -/
  refused : Option Refused := none
  deriving Repr, DecidableEq

namespace Issue

/-- The issue seen from a value around the one where it was found. -/
def within (s : Step) (i : Issue) : Issue := { i with loc := s :: i.loc }

/-- The lines of a report about an issue. The last one names its page in the manual. -/
def report (manual : Option String) (i : Issue) : List String :=
  let value := match i.refused with
    | some v => ", input_value=" ++ v.shown ++ ", input_type=" ++ v.typeName
    | none => ""
  let reference := manual.map fun place =>
    "    For further information visit " ++ place ++ i.cause.code
  [".".intercalate (i.loc.map Step.text),
    "  " ++ i.cause.message ++ " [type=" ++ i.cause.code ++ value ++ "]"] ++ reference.toList

end Issue

/-- A value that was not accepted as the record called `title`. -/
structure Invalid where
  title : String
  issues : List Issue
  deriving Repr, DecidableEq

/-- The report on a value that was not accepted. -/
def Invalid.message (manual : Option String) (e : Invalid) : String :=
  let n := e.issues.length
  let head := toString n ++ " validation error" ++ (if n = 1 then "" else "s") ++ " for " ++ e.title
  "\n".intercalate (head :: e.issues.flatMap (Issue.report manual))

end InertialRelay
