import TreeQuery.Decimal.Shortest

/-!
# Layouts of decimal text

The digits of a number are chosen once; where the point stands, when an
exponent is written and how it is spelled is the decision of the format, held
in one record.
-/

namespace TreeQuery

/-- How the digits of a double are laid out.  The point position is the number
of digits in front of the point; positions from `leastPoint` to `greatestPoint`
are written without an exponent. -/
structure Decimal.Layout where
  leastPoint : Int
  greatestPoint : Int
  plusSign : Bool

namespace Decimal.Layout

/-- The text of decimal digits. -/
def digitText (digits : List Nat) : String :=
  String.ofList (digits.map Nat.digitChar)

/-- The text of an integer exponent. -/
def exponentText (layout : Layout) (exponent : Int) : String :=
  match exponent with
  | .ofNat value => (if layout.plusSign then "+" else "") ++ toString value
  | .negSucc value => "-" ++ toString (value + 1)

/-- The text of a nonzero magnitude. -/
def magnitude (layout : Layout) (decimal : Decimal) : String :=
  let count : Int := decimal.digits.length
  let point := count + decimal.exponent
  if layout.leastPoint ≤ point ∧ point ≤ layout.greatestPoint then
    if 0 ≤ decimal.exponent then
      digitText decimal.digits ++ digitText (List.replicate decimal.exponent.toNat 0) ++ ".0"
    else if 0 < point then
      digitText (decimal.digits.take point.toNat) ++ "." ++
        digitText (decimal.digits.drop point.toNat)
    else
      "0." ++ digitText (List.replicate (-point).toNat 0) ++ digitText decimal.digits
  else
    let leading := digitText (decimal.digits.take 1)
    let rest := digitText (decimal.digits.drop 1)
    let fraction := if decimal.digits.length ≤ 1 then "" else "." ++ rest
    leading ++ fraction ++ "e" ++ exponentText layout (point - 1)

/-- The text of a double. -/
def render (layout : Layout) (value : Double) : String :=
  (if value.negative then "-" else "") ++
    (if value.rank = 0 then "0.0" else magnitude layout (Decimal.shortest value.rank))

end Decimal.Layout

end TreeQuery
