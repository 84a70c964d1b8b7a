import InertialRelay.Binary64.Exact
import InertialRelay.Data
import InertialRelay.Text.Numeral
import InertialRelay.Yaml.Scalar

/-!
# Values of scalars

What a plain scalar stands for: a truth value, a number in one of several notations, null, a date,
or else its own text. Scalars in quotes are texts.
-/

namespace InertialRelay.Yaml

/-- The types a scalar can have. -/
inductive ScalarType where
  | null
  | bool
  | int
  | float
  | date
  | str
  /-- The key under which a mapping takes in others. -/
  | merge
  /-- A sign that stands for a value only as a key. -/
  | default
  deriving Repr, DecidableEq

namespace Resolve

open Text

def isDigitOrBar (c : Char) : Bool := c.isDigit || c == '_'

/-- Drops a sign. -/
def unsigned : List Char → List Char
  | '+' :: rest => rest
  | '-' :: rest => rest
  | s => s

/-- Parts of an hour or a minute: a colon and a number below sixty, at least once. -/
def sixties : Nat → List Char → Option (List Char)
  | 0, _ => none
  | fuel + 1, s =>
    let after : Option (List Char) := match s with
      | ':' :: a :: b :: rest =>
        if a.isDigit && a.toNat < 0x36 && b.isDigit then some rest
        else if a.isDigit then some (b :: rest)
        else none
      | [':', a] => if a.isDigit then some [] else none
      | _ => none
    match after with
    | some (':' :: rest) => sixties fuel (':' :: rest)
    | after => after

/-- An exponent with a sign, or nothing. -/
def isExponent : List Char → Bool
  | [] => true
  | e :: sign :: d :: rest =>
    (e == 'e' || e == 'E') && (sign == '+' || sign == '-') && d.isDigit && rest.all Char.isDigit
  | _ => false

/-- A decimal with a point, in base ten or with hours and minutes. -/
def isDecimal (s : List Char) : Bool :=
  let body := unsigned s
  match body with
  | '.' :: d :: rest =>
    body.length == s.length && d.isDigit && isExponent (rest.dropWhile isDigitOrBar)
  | d :: rest =>
    d.isDigit &&
      match rest.dropWhile isDigitOrBar with
      | '.' :: rest => isExponent (rest.dropWhile isDigitOrBar)
      | rest =>
        match sixties rest.length rest with
        | some ('.' :: rest) => rest.all isDigitOrBar
        | _ => false
  | [] => false

def isFloat (s : List Char) : Bool :=
  isDecimal s ||
    [".inf", ".Inf", ".INF"].contains (String.ofList (unsigned s)) ||
    [".nan", ".NaN", ".NAN"].contains (String.ofList s)

/-- An integer in base two, eight, ten, sixteen or sixty. -/
def isInt (s : List Char) : Bool :=
  match unsigned s with
  | ['0'] => true
  | '0' :: 'b' :: rest =>
    !rest.isEmpty && rest.all fun c => c == '0' || c == '1' || c == '_'
  | '0' :: 'x' :: rest =>
    !rest.isEmpty && rest.all fun c => (Scalar.hexValue? c).isSome || c == '_'
  | '0' :: rest => rest.all fun c => ('0' ≤ c && c ≤ '7') || c == '_'
  | d :: rest =>
    d.isDigit &&
      match rest.dropWhile isDigitOrBar with
      | [] => true
      | rest => sixties rest.length rest == some []
  | [] => false

/-- Takes between `least` and `most` digits off the front, as many as there are. -/
def digits? (least most : Nat) (s : List Char) : Option (Nat × List Char) :=
  let ds := (s.take most).takeWhile Char.isDigit
  if ds.length < least then none else some (Numeral.ofDigits 10 ds, s.drop ds.length)

def char? (c : Char) : List Char → Option (List Char)
  | d :: rest => if d = c then some rest else none
  | [] => none

/-- A time of day, and the minutes that its zone is ahead, if a difference is given. -/
structure Clock where
  hour : Nat
  minute : Nat
  second : Nat
  ahead : Option Int
  deriving Repr, DecidableEq

/-- The fields of a date, or of a date and a time of day. -/
structure Moment where
  year : Nat
  month : Nat
  day : Nat
  clock : Option Clock := none
  deriving Repr, DecidableEq

/-- What may follow the seconds: a fraction, and a zone as a letter or by its difference. -/
def zone? (s : List Char) : Option (Option Int) :=
  let s := match s with
    | '.' :: rest => rest.dropWhile Char.isDigit
    | s => s
  match s.dropWhile isBlank with
  | [] => if s.isEmpty then some none else none
  | ['Z'] => some none
  | c :: rest => do
    if c != '+' && c != '-' then none
    else
      let (hours, rest) ← digits? 1 2 rest
      let minutes ← match rest with
        | [] => some 0
        | ':' :: rest =>
          match digits? 2 2 rest with
          | some (minutes, []) => some minutes
          | _ => none
        | _ => none
      let ahead : Int := hours * 60 + minutes
      return some (if c == '-' then -ahead else ahead)

/-- A date of four, two and two digits, or a date with a time of day. -/
def moment? (s : List Char) : Option Moment := do
  let (year, rest) ← digits? 4 4 s
  let rest ← char? '-' rest
  let (month, rest₁) ← digits? 1 2 rest
  let rest₂ ← char? '-' rest₁
  let (day, rest₃) ← digits? 1 2 rest₂
  if rest₃.isEmpty then
    if s.length = 10 then return { year, month, day } else none
  else
    let clock ← match rest₃ with
      | 'T' :: rest | 't' :: rest => some rest
      | c :: rest => if isBlank c then some (rest.dropWhile isBlank) else none
      | [] => none
    let (hour, rest) ← digits? 1 2 clock
    let rest ← char? ':' rest
    let (minute, rest) ← digits? 2 2 rest
    let rest ← char? ':' rest
    let (second, rest) ← digits? 2 2 rest
    let ahead ← zone? rest
    return { year, month, day, clock := some ⟨hour, minute, second, ahead⟩ }

/-- The type of a plain scalar. -/
def scalarType (text : String) : ScalarType :=
  let s := text.toList
  if ["yes", "Yes", "YES", "no", "No", "NO", "true", "True", "TRUE", "false", "False", "FALSE",
      "on", "On", "ON", "off", "Off", "OFF"].contains text then .bool
  else if isFloat s then .float
  else if isInt s then .int
  else if text == "<<" then .merge
  else if ["~", "null", "Null", "NULL", ""].contains text then .null
  else if (moment? s).isSome then .date
  else if text == "=" then .default
  else .str

/-- The parts between colons. -/
def colonParts (s : List Char) : List (List Char) :=
  s.foldr (fun c parts => match c, parts with
    | ':', parts => [] :: parts
    | c, part :: parts => (c :: part) :: parts
    | c, [] => [[c]]) [[]]

/-- An integer in a base that is a power of two, with the fault that tells of another text. -/
def intOfBase (base : Nat) (s : List Char) : Except Fault Int :=
  if s.isEmpty || !s.all fun c => (Scalar.hexValue? c).any (· < base) then
    .error (.unreadableInt base (Text.quoted (String.ofList s)))
  else .ok (Numeral.ofDigits base s)

/-- An integer in base ten, with the fault that tells of another text. -/
def intOf (s : List Char) : Except Fault Int :=
  match Numeral.int s with
  | .value n => .ok n
  | .tooLong digits => .error (.longInt Numeral.maxDigits digits)
  | .unreadable => .error (.unreadableInt 10 (Text.quoted (String.ofList s)))

def int (s : List Char) : Except Fault Data := do
  let s := s.filter (· != '_')
  let sign : Int := if s.head? == some '-' then -1 else 1
  let n ← match unsigned s with
    | ['0'] => pure 0
    | '0' :: 'b' :: rest => intOfBase 2 rest
    | '0' :: 'x' :: rest => intOfBase 16 rest
    | '0' :: rest => intOfBase 8 ('0' :: rest)
    | s => do
      let parts ← (colonParts s).mapM intOf
      pure (parts.foldl (fun n part => n * 60 + part) 0)
  return .int (sign * n)

/-- A float as text, with the fault that tells of another text. -/
def floatOf (s : List Char) : Except Fault Float :=
  match Numeral.float? s with
  | some x => .ok x
  | none => .error (.unreadableFloat (Text.quoted (String.ofList s)))

/-- The sum of parts that weigh `weight`, and sixty times as much from each to the next. A weight is
exact and has to fit into binary64. -/
def sumOfSixties : List Float → Nat → Float → Except Fault Float
  | [], _, sum => .ok sum
  | part :: rest, weight, sum =>
    match Binary64.ofInt? weight with
    | some w => sumOfSixties rest (weight * 60) (sum + part * w)
    | none => .error .intTooLarge

def float (s : List Char) : Except Fault Data := do
  let s := (s.filter (· != '_')).map Char.toLower
  let negative := s.head? == some '-'
  let body := unsigned s
  let x ← match String.ofList body with
    | ".inf" => pure (1 / 0 : Float)
    | ".nan" => pure (0 / 0 : Float)
    | _ =>
      match colonParts body with
      | [_] => floatOf body
      | parts => do sumOfSixties (← parts.mapM floatOf).reverse 1 0
  return .real (if negative then -x else x)

def daysIn (year month : Nat) : Nat :=
  match month with
  | 2 => if year % 4 = 0 && (year % 100 != 0 || year % 400 = 0) then 29 else 28
  | 4 | 6 | 9 | 11 => 30
  | _ => 31

/-- A difference of time zones as a complaint shows it: whole days down, and seconds up. -/
def shownDifference (minutes : Int) : String :=
  let days := minutes.fdiv 1440
  let seconds := minutes.fmod 1440 * 60
  let parts := (if days = 0 then [] else ["days=" ++ toString days]) ++
    (if seconds = 0 then [] else ["seconds=" ++ toString seconds])
  "datetime.timedelta(" ++ ", ".intercalate parts ++ ")"

/-- A zone less than a day ahead or behind. -/
def checkZone (ahead : Option Int) : Except Fault Unit :=
  match ahead with
  | none => .ok ()
  | some minutes =>
    if minutes.natAbs < 1440 then .ok ()
    else .error (.noDate ("offset must be a timedelta strictly between " ++
      "-timedelta(hours=24) and timedelta(hours=24), not " ++ shownDifference minutes ++ "."))

/-- A day that the calendar has. -/
def checkDay (m : Moment) : Except Fault Unit :=
  if m.year = 0 then .error (.noDate "year 0 is out of range")
  else if m.month = 0 || 12 < m.month then .error (.noDate "month must be in 1..12")
  else if m.day = 0 || daysIn m.year m.month < m.day then
    .error (.noDate "day is out of range for month")
  else .ok ()

/-- A time that a day has. -/
def checkTime (c : Clock) : Except Fault Unit :=
  if 23 < c.hour then .error (.noDate "hour must be in 0..23")
  else if 59 < c.minute then .error (.noDate "minute must be in 0..59")
  else if 59 < c.second then .error (.noDate "second must be in 0..59")
  else .ok ()

/-- A date, and a time of day if there is one. -/
def date (s : List Char) : Except Fault Data := do
  match moment? s with
  | none => throw .badDocument
  | some m =>
    if let some c := m.clock then checkZone c.ahead
    checkDay m
    if let some c := m.clock then checkTime c
    return .date

/-- The truth value of a word that stands for one. -/
def bool (text : String) : Except Fault Data :=
  match String.ofList (text.toList.map Char.toLower) with
  | "yes" | "true" | "on" => .ok (.bool true)
  | "no" | "false" | "off" => .ok (.bool false)
  | _ => .error .badDocument

/-- What the full names of the standard types begin with. -/
def standard (name : String) : String := "tag:yaml.org,2002:" ++ name

/-- The type that a tag names. -/
def tagged? (tag : String) : Option ScalarType :=
  [("str", ScalarType.str), ("null", .null), ("bool", .bool), ("int", .int), ("float", .float),
    ("timestamp", .date), ("merge", .merge), ("value", .default)].findSome? fun (name, t) =>
      if tag == standard name then some t else none

/-- The type of a scalar from its tag, or else from the way it is written. A lone exclamation mark
asks for the type that a plain scalar would have. -/
def typeOf (tag : Option String) (text : String) (plain : Bool) : Except Fault ScalarType :=
  match tag with
  | none => .ok (if plain then scalarType text else .str)
  | some "!" => .ok (scalarType text)
  | some tag =>
    match tagged? tag with
    | some t => .ok t
    | none => .error .badDocument

/-- The value of a scalar. -/
def scalar (t : ScalarType) (text : String) : Except Fault Data :=
  match t with
  | .null => .ok .null
  | .bool => bool text
  | .int => int text.toList
  | .float => float text.toList
  | .date => date text.toList
  | .str => .ok (.str text)
  | .merge | .default => .error .badDocument

end Resolve

end InertialRelay.Yaml
