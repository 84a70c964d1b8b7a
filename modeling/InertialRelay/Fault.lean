import InertialRelay.Kind
import InertialRelay.Text.Quoted
import InertialRelay.Validation.Issue

/-!
# Faults

Everything that can stop a computation of the relay, by its cause, and the wording of each cause.
-/

namespace InertialRelay

inductive Fault where
  /-- An integer beyond the range of binary64. -/
  | intTooLarge
  | nanToInt
  | infinityToInt
  /-- A function outside its domain. -/
  | domain
  /-- A finite number whose square is not. -/
  | squareTooLarge
  /-- Too few components to take apart. -/
  | tooFew (expected actual : Nat)
  | tooMany (expected : Nat)
  /-- A list that ends before the component that is asked for. -/
  | shortList
  /-- A matrix and a vector that do not fit. -/
  | shapeMismatch
  | notAttitudeKind (k : Kind)
  | notInertialKind (k : Kind)
  | unknownKind (quoted : String)
  /-- A wire message without a field that is asked for. -/
  | missingField (name : String)
  /-- A text that is no number of the kind that is asked for. -/
  | unreadableFloat (quoted : String)
  | unreadableInt (base : Nat) (quoted : String)
  /-- A text with more digits than an integer may have. -/
  | longInt (limit actual : Nat)
  /-- A date or time of day that the calendar does not have. -/
  | noDate (text : String)
  /-- A code that no character has, and one that is beyond 31 bits. -/
  | noCharacter
  | codeTooLarge
  /-- A value of a type that is never a number. -/
  | noFloat (typeName : String)
  | noInt (typeName : String)
  | unknownLevel (quoted : String)
  | noLevel (shown : String)
  /-- A failure of the transport or of the file system. -/
  | transport (text : String)
  | notFound (path : String)
  | isDirectory (path : String)
  | notDirectory (path : String)
  | alreadyExists (path : String)
  | nameTooLong (path : String)
  /-- A path with a character that no path can hold. -/
  | nullInPath
  /-- A failure of a subscriber. -/
  | subscriber (text : String)
  | badDocument
  /-- A value that was not accepted, and where the manual is found that its report refers to. -/
  | invalid (e : Invalid) (manual : Option String := none)
  deriving Repr, DecidableEq

namespace Fault

/-- The most characters that the message about an unreadable integer shows of its text in quotes. -/
def shownOfInt : Nat := 200

def message : Fault → String
  | intTooLarge => "int too large to convert to float"
  | nanToInt => "cannot convert float NaN to integer"
  | infinityToInt => "cannot convert float infinity to integer"
  | domain => "math domain error"
  | squareTooLarge => "(34, 'Numerical result out of range')"
  | tooFew expected actual =>
    "not enough values to unpack (expected " ++ toString expected ++ ", got " ++
      toString actual ++ ")"
  | tooMany expected => "too many values to unpack (expected " ++ toString expected ++ ")"
  | shortList => "list index out of range"
  | shapeMismatch => "matrix and vector sizes differ"
  | notAttitudeKind k => "MessageKind." ++ k.name ++ " is not an attitude message"
  | notInertialKind k => "MessageKind." ++ k.name ++ " is not an inertial message"
  | unknownKind quoted => quoted ++ " is not a valid MessageKind"
  | missingField name => "'Message' object has no attribute '" ++ name ++ "'"
  | unreadableFloat quoted => "could not convert string to float: " ++ quoted
  | unreadableInt base quoted =>
    "invalid literal for int() with base " ++ toString base ++ ": " ++
      String.ofList (quoted.toList.take shownOfInt)
  | longInt limit actual =>
    "Exceeds the limit (" ++ toString limit ++ " digits) for integer string conversion: " ++
      "value has " ++ toString actual ++
      " digits; use sys.set_int_max_str_digits() to increase the limit"
  | noDate text => text
  | noCharacter => "chr() arg not in range(0x110000)"
  | codeTooLarge => "Python int too large to convert to C int"
  | noFloat typeName =>
    "float() argument must be a string or a real number, not '" ++ typeName ++ "'"
  | noInt typeName =>
    "int() argument must be a string, a bytes-like object or a real number, not '" ++
      typeName ++ "'"
  | unknownLevel quoted => "Unknown level: " ++ quoted
  | noLevel shown => "Level not an integer or a valid string: " ++ shown
  | transport text => text
  | notFound path => "[Errno 2] No such file or directory: " ++ Text.quoted path
  | isDirectory path => "[Errno 21] Is a directory: " ++ Text.quoted path
  | notDirectory path => "[Errno 20] Not a directory: " ++ Text.quoted path
  | alreadyExists path => "[Errno 17] File exists: " ++ Text.quoted path
  | nameTooLong path => "[Errno 36] File name too long: " ++ Text.quoted path
  | nullInPath => "embedded null byte"
  | subscriber text => text
  | badDocument => "the document cannot be read"
  | invalid e manual => e.message manual

/-- The fault as its message refers to a manual. -/
def located (manual : Option String) : Fault → Fault
  | invalid e _ => invalid e manual
  | f => f

end Fault

end InertialRelay
