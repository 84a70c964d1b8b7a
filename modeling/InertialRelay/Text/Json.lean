import InertialRelay.Data
import InertialRelay.Text.Numeral
import InertialRelay.Text.Quoted

/-!
# JSON

A compact writer in ASCII, and a reader of the standard grammar. The writer has words for NaN and
the infinities; the reader, like the standard, has none.
-/

namespace InertialRelay.Text.Json

namespace Write

def words : FloatWords := ⟨"NaN", "Infinity"⟩

/-- A UTF-16 unit as an escape. -/
def unit (n : Nat) : List Char := '\\' :: 'u' :: (hex 4 n).toList

/-- A character outside printable ASCII as one or two UTF-16 units. -/
def units (c : Char) : List Char :=
  let n := c.toNat
  if n < 0x10000 then unit n
  else
    let m := n - 0x10000
    unit (0xd800 + m / 0x400) ++ unit (0xdc00 + m % 0x400)

/-- One character of a string. -/
def char (c : Char) : List Char :=
  if c = '"' then ['\\', '"']
  else if c = '\\' then ['\\', '\\']
  else if c = '\n' then ['\\', 'n']
  else if c = '\r' then ['\\', 'r']
  else if c = '\t' then ['\\', 't']
  else if c.toNat = 0x08 then ['\\', 'b']
  else if c.toNat = 0x0c then ['\\', 'f']
  else if 0x20 ≤ c.toNat && c.toNat < 0x7f then [c]
  else units c

def string (s : String) : List Char := '"' :: s.toList.flatMap char ++ ['"']

/-- The parts with commas between them. -/
def commas : List (List Char) → List Char
  | [] => []
  | [part] => part
  | part :: rest => part ++ ',' :: commas rest

mutual

/-- A value without blanks. Tuples are written as arrays, and a date, which no record holds, as
null. -/
def value : Data → List Char
  | .null => "null".toList
  | .bool b => if b then "true".toList else "false".toList
  | .int n => (toString n).toList
  | .real x => (floatText words x).toList
  | .str s => string s
  | .date => "null".toList
  | .list items => '[' :: commas (values items) ++ [']']
  | .tuple items => '[' :: commas (values items) ++ [']']
  | .map entries => '\x7b' :: commas (members entries) ++ ['\x7d']

def values : List Data → List (List Char)
  | [] => []
  | d :: rest => value d :: values rest

def members : List (String × Data) → List (List Char)
  | [] => []
  | (k, d) :: rest => (string k ++ ':' :: value d) :: members rest

end

end Write

/-- The compact text of a value. -/
def write (d : Data) : String := String.ofList (Write.value d)

namespace Read

def isSpace (c : Char) : Bool := c = ' ' || c = '\t' || c = '\n' || c = '\r'

def skip (s : List Char) : List Char := s.dropWhile isSpace

def hexDigit? (c : Char) : Option Nat :=
  if c.isDigit then some (c.toNat - 0x30)
  else if 'a' ≤ c && c ≤ 'f' then some (c.toNat - 0x61 + 10)
  else if 'A' ≤ c && c ≤ 'F' then some (c.toNat - 0x41 + 10)
  else none

/-- Four hexadecimal digits. -/
def unit? : List Char → Option (Nat × List Char)
  | a :: b :: c :: d :: rest => do
    let n := ((← hexDigit? a) * 16 + (← hexDigit? b)) * 256 +
      ((← hexDigit? c) * 16 + (← hexDigit? d))
    return (n, rest)
  | _ => none

/-- What follows `\u`: one unit, or two that stand for a character beyond the first plane. -/
def escaped? (s : List Char) : Option (Char × List Char) := do
  let (high, rest) ← unit? s
  if 0xd800 ≤ high && high < 0xdc00 then
    match rest with
    | '\\' :: 'u' :: rest =>
      let (low, rest) ← unit? rest
      if 0xdc00 ≤ low && low < 0xe000 then
        return (Char.ofNat (0x10000 + (high - 0xd800) * 0x400 + (low - 0xdc00)), rest)
      else none
    | _ => none
  else if 0xdc00 ≤ high && high < 0xe000 then none
  else return (Char.ofNat high, rest)

/-- One character of a string, which is not its end. -/
def char? : List Char → Option (Char × List Char)
  | '\\' :: 'u' :: rest => escaped? rest
  | '\\' :: c :: rest =>
    match c with
    | '"' | '\\' | '/' => some (c, rest)
    | 'n' => some ('\n', rest)
    | 'r' => some ('\r', rest)
    | 't' => some ('\t', rest)
    | 'b' => some (Char.ofNat 0x08, rest)
    | 'f' => some (Char.ofNat 0x0c, rest)
    | _ => none
  | c :: rest => if c.toNat < 0x20 || c = '\\' then none else some (c, rest)
  | [] => none

/-- The characters of a string up to the closing quote; `fuel` bounds their number. -/
def string? : Nat → List Char → Option (List Char × List Char)
  | 0, _ => none
  | _, '"' :: rest => some ([], rest)
  | fuel + 1, s => do
    let (c, rest) ← char? s
    let (cs, rest) ← string? fuel rest
    return (c :: cs, rest)

/-- A number: an integer stays one, any other is rounded to binary64. -/
def number? (s : List Char) : Option (Data × List Char) := do
  let (negative, rest) := match s with
    | '-' :: rest => (true, rest)
    | s => (false, s)
  let (whole, rest) := Numeral.splitDigits rest
  if whole.isEmpty || (whole.length > 1 && whole.head? == some '0') then none
  else
    let (point, part, rest) := match rest with
      | '.' :: rest => let (ds, rest) := Numeral.splitDigits rest; (true, ds, rest)
      | rest => (false, [], rest)
    if point && part.isEmpty then none
    else
      match rest with
      | c :: rest' =>
        if c = 'e' || c = 'E' then
          let (down, ds) := Numeral.splitSign rest'
          let (ds, rest) := Numeral.splitDigits ds
          if ds.isEmpty then none
          else
            let e : Int := if down then -Numeral.ofDigits 10 ds else Numeral.ofDigits 10 ds
            return (real negative whole part e, rest)
        else return (plain negative point whole part, rest)
      | [] => return (plain negative point whole part, [])
where
  real (negative : Bool) (whole part : List Char) (e : Int) : Data :=
    .real (Numeral.scientific negative (Numeral.ofDigits 10 (whole ++ part)) (e - part.length))
  plain (negative point : Bool) (whole part : List Char) : Data :=
    if point then real negative whole part 0
    else
      let n := Numeral.ofDigits 10 whole
      .int (if negative then -n else n)

/-- Takes a word off the front. -/
def word? (word : List Char) (d : Data) (s : List Char) : Option (Data × List Char) :=
  if word.isPrefixOf s then some (d, s.drop word.length) else none

mutual

/-- One value; `fuel` bounds the length of the text. -/
def value? : Nat → List Char → Option (Data × List Char)
  | 0, _ => none
  | fuel + 1, s =>
    match skip s with
    | '"' :: rest => do
      let (cs, rest) ← string? (rest.length + 1) rest
      return (.str (String.ofList cs), rest)
    | '[' :: rest =>
      match skip rest with
      | ']' :: rest => some (.list [], rest)
      | rest => do
        let (items, rest) ← items? fuel rest
        return (.list items, rest)
    | '\x7b' :: rest =>
      match skip rest with
      | '\x7d' :: rest => some (.map [], rest)
      | rest => do
        let (entries, rest) ← members? fuel rest
        return (.map entries, rest)
    | 't' :: rest => word? "rue".toList (.bool true) rest
    | 'f' :: rest => word? "alse".toList (.bool false) rest
    | 'n' :: rest => word? "ull".toList .null rest
    | rest => number? rest

/-- The items of an array up to the closing bracket. -/
def items? : Nat → List Char → Option (List Data × List Char)
  | 0, _ => none
  | fuel + 1, s => do
    let (d, rest) ← value? fuel s
    match skip rest with
    | ',' :: rest =>
      let (ds, rest) ← items? fuel rest
      return (d :: ds, rest)
    | ']' :: rest => return ([d], rest)
    | _ => none

/-- The members of an object up to the closing brace. -/
def members? : Nat → List Char → Option (List (String × Data) × List Char)
  | 0, _ => none
  | fuel + 1, s => do
    match skip s with
    | '"' :: rest =>
      let (key, rest) ← string? (rest.length + 1) rest
      match skip rest with
      | ':' :: rest =>
        let (d, rest) ← value? fuel rest
        match skip rest with
        | ',' :: rest =>
          let (ms, rest) ← members? fuel rest
          return ((String.ofList key, d) :: ms, rest)
        | '\x7d' :: rest => return ([(String.ofList key, d)], rest)
        | _ => none
      | _ => none
    | _ => none

end

end Read

/-- The value that makes up the whole text. -/
def read? (s : String) : Option Data := do
  let (d, rest) ← Read.value? (s.length + 1) s.toList
  if (Read.skip rest).isEmpty then return d else none

end InertialRelay.Text.Json
