import InertialRelay.Log.Entry
import InertialRelay.Message

/-!
# Wire messages

A message as the transport hands it over: a type name, the number of the system that sent it, and
named fields.
-/

namespace InertialRelay

structure WireMessage where
  type : String
  system : Int
  fields : List (String × Num)
  deriving Repr, DecidableEq

namespace WireMessage

def field? (w : WireMessage) (name : String) : Except Fault Num :=
  match w.fields.lookup name with
  | some v => .ok v
  | none => .error (.missingField name)

/-- The typed message, if the type is one the relay consumes and no field is missing. A missing
field is reported. -/
def decode (w : WireMessage) : Option Message × Log :=
  match Kind.ofName? w.type with
  | none => (none, [])
  | some k =>
    match Message.ofFields? k (Message.lookupIn w.fields) with
    | .ok m => (some m, [])
    | .error name =>
      (none, [⟨.warning, .decoder,
        "Malformed " ++ w.type ++ " message: " ++ (Fault.missingField name).message⟩])

end WireMessage

end InertialRelay
