import TreeQuery.Decimal.Double

/-!
# The shortest decimal that reads back

Every magnitude owns the interval of reals that round to it.  The digits
chosen for it are those of the coarsest decimal grid that has a point in the
interval; among several points of that grid the nearest is taken.
-/

namespace TreeQuery

/-- A decimal magnitude: the digits, most significant first, and the power of
ten that the last digit counts. -/
structure Decimal where
  digits : List Nat
  exponent : Int
  deriving DecidableEq

namespace Decimal

/-- The decimal digits of a positive number, most significant first. -/
def digitsOf (value : Nat) : List Nat :=
  if value < 10 then [value] else digitsOf (value / 10) ++ [value % 10]
termination_by value

/-- A positive number without its trailing zeros, and how many those were. -/
def stripZeros (value : Nat) : Nat × Nat :=
  if value = 0 then (0, 0)
  else if value % 10 = 0 then
    let (stripped, count) := stripZeros (value / 10)
    (stripped, count + 1)
  else (value, 0)
termination_by value
decreasing_by omega

/-- The decimal `value * 10 ^ exponent`, written without trailing zeros. -/
def ofNat (value : Nat) (exponent : Int) : Decimal :=
  let (stripped, count) := stripZeros value
  ⟨digitsOf stripped, exponent + count⟩

/-- The interval of reals that round to a rank, its value and its ends, all in
half units of `2 ^ -1074`.  The ends belong to it when the rank is even. -/
structure Interval where
  lower : Nat
  value : Nat
  upper : Nat
  closed : Bool

/-- The interval of reals that round to the given rank. -/
def Interval.ofRank (rank : Nat) : Interval where
  lower := Double.units (rank - 1) + Double.units rank
  value := 2 * Double.units rank
  upper := Double.units rank + Double.units (rank + 1)
  closed := rank % 2 == 0

/-- Whether `point / scale` half units lie in the interval. -/
def Interval.holds (interval : Interval) (point scale : Nat) : Bool :=
  if interval.closed then
    interval.lower * scale ≤ point && point ≤ interval.upper * scale
  else
    interval.lower * scale < point && point < interval.upper * scale

/-- The point of the grid `10 ^ exponent` that represents the interval, if the
grid has one: the nearer of the value's two neighbours, and of two equally
near the even one. -/
def gridPoint? (interval : Interval) (exponent : Int) : Option Nat :=
  let step := 2 * Double.unitsPerOne * Nat.pow 10 exponent.toNat
  let scale := Nat.pow 10 (-exponent).toNat
  let target := interval.value * scale
  let below := target / step
  let above := below + 1
  let toBelow := target - below * step
  let toAbove := above * step - target
  let nearer := if toBelow < toAbove then below
    else if toAbove < toBelow then above
    else below + below % 2
  let farther := if nearer = below then above else below
  if interval.holds (nearer * step) scale then some nearer
  else if interval.holds (farther * step) scale then some farther
  else none

/-- The first grid with a point, trying at most `count` grids from the coarse
side. -/
def firstGrid (interval : Interval) : Nat → Int → Decimal
  | 0, exponent => ofNat 0 exponent
  | count + 1, exponent =>
      match gridPoint? interval exponent with
      | some point => ofNat point exponent
      | none => firstGrid interval count (exponent - 1)

/-- The power of ten of the leading digit of `units` half units, or one more.
The number of binary digits gives it up to one. -/
def leadingExponent (halfUnits : Nat) : Int :=
  ((Nat.log2 halfUnits : Int) - 1075) * 30103 / 100000 + 1

/-- The shortest decimal that reads back as a nonzero magnitude.  Twenty grids
below the leading digit are more than any double needs. -/
def shortest (rank : Nat) : Decimal :=
  let interval := Interval.ofRank rank
  firstGrid interval 20 (leadingExponent interval.value)

end Decimal

end TreeQuery
