import InertialRelay.Data
import InertialRelay.Text.FloatText
import InertialRelay.Text.Shown

/-!
# Values as the log shows them

Texts stand in quotes, with escapes for what does not show; mappings, lists and tuples stand in
braces, brackets and parentheses.
-/

namespace InertialRelay.Text

/-- The lower-case hexadecimal digits of `n`, padded with zeros to `width`. -/
def hex (width n : Nat) : String :=
  let digits := Nat.toDigits 16 n
  String.ofList (List.replicate (width - digits.length) '0' ++ digits)

/-- One character of a text in the given quotes. -/
def quotedChar (quote c : Char) : String :=
  if c = quote || c = '\\' then String.ofList ['\\', c]
  else if c = '\n' then "\\n"
  else if c = '\r' then "\\r"
  else if c = '\t' then "\\t"
  else if isShown c then c.toString
  else if c.toNat < 0x100 then "\\x" ++ hex 2 c.toNat
  else if c.toNat < 0x10000 then "\\u" ++ hex 4 c.toNat
  else "\\U" ++ hex 8 c.toNat

/-- A text in single quotes, or in double quotes where that saves an escape. -/
def quoted (s : String) : String :=
  let quote := if s.contains '\'' && !s.contains '"' then '"' else '\''
  quote.toString ++ String.join (s.toList.map (quotedChar quote)) ++ quote.toString

namespace Shown

def words : FloatWords := ⟨"nan", "inf"⟩

def commas (parts : List String) : String := ", ".intercalate parts

mutual

/-- A value as the log shows it. -/
def value : Data → String
  | .null => "None"
  | .bool b => if b then "True" else "False"
  | .int n => toString n
  | .real x => floatText words x
  | .str s => quoted s
  | .date => "date"
  | .list items => "[" ++ commas (values items) ++ "]"
  | .tuple [item] => "(" ++ value item ++ ",)"
  | .tuple items => "(" ++ commas (values items) ++ ")"
  | .map entries => "\x7b" ++ commas (fields entries) ++ "\x7d"

def values : List Data → List String
  | [] => []
  | d :: rest => value d :: values rest

def fields : List (String × Data) → List String
  | [] => []
  | (k, d) :: rest => (quoted k ++ ": " ++ value d) :: fields rest

end

end Shown

end InertialRelay.Text
