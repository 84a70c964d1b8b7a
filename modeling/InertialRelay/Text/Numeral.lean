import InertialRelay.Text.Blank

/-!
# Reading numerals

A numeral is a sign, digits, a point and an exponent in the usual places; the words for infinity and
NaN are read in any case. Two rules say which underscores a numeral may hold. By the strict one each
stands between two digits. By the loose one they may stand anywhere but at an end or side by side,
and an integer may have zeros in front and a fraction of zeros.
-/

namespace InertialRelay.Text.Numeral

/-- The numeral without its underscores, unless one of them does not stand between two digits. -/
def ungroup : List Char → Option (List Char)
  | [] => some []
  | '_' :: _ => none
  | [c] => some [c]
  | c :: '_' :: d :: rest =>
    if c.isDigit && d.isDigit then (ungroup (d :: rest)).map (c :: ·) else none
  | c :: d :: rest => (ungroup (d :: rest)).map (c :: ·)

/-- Whether the sign is a minus, and what follows the sign. -/
def splitSign : List Char → Bool × List Char
  | '-' :: rest => (true, rest)
  | '+' :: rest => (false, rest)
  | s => (false, s)

/-- The digits at the front, and what follows them. -/
def splitDigits (s : List Char) : List Char × List Char :=
  (s.takeWhile Char.isDigit, s.dropWhile Char.isDigit)

/-- The number that digits of the given base write. -/
def ofDigits (base : Nat) (ds : List Char) : Nat :=
  ds.foldl (fun n d => n * base + digitValue d) 0
where
  digitValue (d : Char) : Nat :=
    if d.isDigit then d.toNat - 0x30 else d.toLower.toNat - 0x61 + 10

/-- The number `m * 10 ^ e`, rounded to the nearest binary64 value. -/
def scientific (negative : Bool) (m : Nat) (e : Int) : Float :=
  let x := Float.ofScientific m (e < 0) e.natAbs
  if negative then -x else x

/-- An exponent that makes up the whole rest of a numeral. -/
def exponent? : List Char → Option Int
  | [] => some 0
  | c :: rest =>
    if c == 'e' || c == 'E' then
      let (negative, ds) := splitSign rest
      if ds.isEmpty || !ds.all Char.isDigit then none
      else some (if negative then -ofDigits 10 ds else ofDigits 10 ds)
    else none

/-- A decimal with at least one digit before or after the point. -/
def decimal? (negative : Bool) (s : List Char) : Option Float := do
  let (whole, rest) := splitDigits s
  let (part, rest) := match rest with
    | '.' :: rest => splitDigits rest
    | rest => ([], rest)
  if whole.isEmpty && part.isEmpty then none
  else
    let e ← exponent? rest
    return scientific negative (ofDigits 10 (whole ++ part)) (e - part.length)

/-- A decimal, or a word for infinity or NaN, without underscores. -/
def bareFloat? (s : List Char) : Option Float :=
  let (negative, body) := splitSign s
  match String.ofList (body.map Char.toLower) with
  | "inf" | "infinity" => some (if negative then -1 / 0 else 1 / 0)
  | "nan" => some (0 / 0)
  | _ => decimal? negative body

/-- How a text reads as an integer. -/
inductive Whole where
  | value (n : Int)
  /-- More digits than an integer may have. -/
  | tooLong (digits : Nat)
  | unreadable
  deriving Repr, DecidableEq

/-- The most digits that an integer may have as text. -/
def maxDigits : Nat := 4300

/-- The integer that digits write after a sign. -/
def signed (negative : Bool) (ds : List Char) : Int :=
  if negative then -ofDigits 10 ds else ofDigits 10 ds

/-! ### The strict rule -/

/-- A float as text, with blanks around it. -/
def float? (s : List Char) : Option Float := (ungroup (trim isBlank s)).bind bareFloat?

/-- An integer as text, with blanks around it. The length of the digits at the front is judged
before what follows them. -/
def int (s : List Char) : Whole :=
  let (negative, body) := splitSign (s.dropWhile isBlank)
  let run := body.takeWhile fun c => c.isDigit || c == '_'
  match ungroup run with
  | none | some [] => .unreadable
  | some ds =>
    if maxDigits < ds.length then .tooLong ds.length
    else if (body.drop run.length).all isBlank then .value (signed negative ds)
    else .unreadable

/-! ### The loose rule -/

/-- A text without its underscores, if it has some and none at an end or beside another. -/
def ungroupLoosely (s : List Char) : Option (List Char) :=
  if s.contains '_' && spaced (s ++ ['_']) '_' then some (s.filter (· != '_')) else none
where
  /-- Whether no underscore follows another; `last` stands before the text. -/
  spaced : List Char → Char → Bool
    | [], _ => true
    | c :: rest, last => !(c == '_' && last == '_') && spaced rest c

/-- A float as text. Blanks may stand around it or underscores in it, but not both. -/
def looseFloat? (s : List Char) : Option Float :=
  bareFloat? (trim isBlank s) <|> (ungroupLoosely s).bind bareFloat?

/-- Digits without zeros in front, and no sign but a minus. A minus counts as a digit where the
length is judged, which comes before what follows the digits. -/
def bareInt (s : List Char) : Whole :=
  let (sign, body) := s.span (· == '-')
  let run := body.takeWhile Char.isDigit
  if 1 < sign.length || run.isEmpty then .unreadable
  else if run.head? == some '0' then if body == ['0'] then .value 0 else .unreadable
  else if maxDigits < sign.length + run.length then .tooLong run.length
  else if body.length == run.length then .value (signed (!sign.isEmpty) run)
  else .unreadable

/-- Drops zeros, and underscores between them, at the front of digits: down to the first other digit
or a minus, to the last character before a point, or to the last character of all. -/
def dropZeros? : List Char → Option (List Char)
  | [] => none
  | c :: rest =>
    if c == '0' then
      let zeros := c :: rest.takeWhile fun c => c == '0' || c == '_'
      let last := zeros.drop (zeros.length - 1)
      match rest.drop (zeros.length - 1) with
      | [] => some last
      | '.' :: part => some (last ++ '.' :: part)
      | d :: more => if d.isDigit || d == '-' then some (d :: more) else none
    else if c.isDigit then some (c :: rest)
    else none

/-- Drops a point with nothing but zeros after it, and at least one. -/
def dropZeroFraction (s : List Char) : List Char :=
  let whole := s.takeWhile (· != '.')
  let zeros := s.drop (whole.length + 1)
  if !zeros.isEmpty && zeros.all (· == '0') then whole else s

/-- An integer as text without what does not change it: blanks around it, a plus, zeros in front, a
fraction of zeros, and underscores. -/
def tidy? (s : List Char) : Option (List Char) := do
  let s ← match trim isBlank s with
    | '-' :: ds => (dropZeros? ds).map ('-' :: ·)
    | '+' :: ds => if ds.head? == some '-' then none else dropZeros? ds
    | ds => dropZeros? ds
  let s := dropZeroFraction s
  return (ungroupLoosely s).getD s

/-- An integer as text, as it stands or else tidied. -/
def looseInt (s : List Char) : Whole :=
  match bareInt s with
  | .unreadable =>
    match (tidy? s).map bareInt with
    | some (.value n) => .value n
    | _ => .unreadable
  | w => w

end InertialRelay.Text.Numeral
