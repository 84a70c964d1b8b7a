import InertialRelay.Binary64.Shortest

/-!
# The text of a float

The shortest digits that read back, laid out with a point and an exponent. The words for values
that have no digits belong to the format around the number.
-/

namespace InertialRelay.Text

/-- How floats are written where they have no digits. -/
structure FloatWords where
  nan : String
  infinity : String
  deriving Repr, DecidableEq

namespace FloatText

open Binary64 (Decimal)

def zeros (n : Nat) : String := String.ofList (List.replicate n '0')

/-- An exponent with its sign and at least two digits. -/
def exponent (e : Int) : String :=
  let digits := toString e.natAbs
  (if e < 0 then "e-" else "e+") ++ (if digits.length < 2 then "0" ++ digits else digits)

/-- A decimal whose first digit stands for a power from `10 ^ -4` to `10 ^ 15` is written without an
exponent and with a digit on either side of the point; any other has one digit before the point and
an exponent. -/
def layout (d : Decimal) : String :=
  let digits := toString d.digits
  let n := digits.length
  let top : Int := d.exponent + n - 1
  if -4 ≤ top ∧ top < 16 then
    if 0 ≤ d.exponent then digits ++ zeros d.exponent.toNat ++ ".0"
    else if 0 ≤ top then
      let k := top.toNat + 1
      String.ofList (digits.toList.take k) ++ "." ++ String.ofList (digits.toList.drop k)
    else "0." ++ zeros (-top - 1).toNat ++ digits
  else
    let tail := digits.toList.drop 1
    String.ofList (digits.toList.take 1) ++
      (if tail.isEmpty then "" else "." ++ String.ofList tail) ++ exponent top

end FloatText

open Float.Model (UnpackedFloat) in
/-- The text of `x`; a zero keeps its sign. -/
def floatText (words : FloatWords) (x : Float) : String :=
  let signed (sign : UnpackedFloat.Sign) (s : String) : String :=
    match sign with
    | .negative => "-" ++ s
    | .positive => s
  match Binary64.unpack x with
  | .notANumber => words.nan
  | .infinity sign => signed sign words.infinity
  | .zero sign => signed sign "0.0"
  | .finite sign m e _ => signed sign (FloatText.layout (Binary64.shortest m e))

end InertialRelay.Text
