/-!
# Finite double-precision numbers

A finite double is a sign together with its rank: the number of
representable magnitudes strictly below its own.  Ranks order magnitudes, so
the neighbours of a value have the neighbouring ranks, and every magnitude is
a natural number of units of `2 ^ -1074`.  All arithmetic here is exact
arithmetic on natural numbers followed by one rounding to the nearest rank.
-/

namespace TreeQuery

/-- The rank of the first magnitude that is too large for a double. -/
def Double.rankBound : Nat := 2047 * Nat.pow 2 52

/-- A finite double-precision number. -/
structure Double where
  negative : Bool
  rank : Nat
  isFinite : rank < Double.rankBound
  deriving DecidableEq

namespace Double

/-- The number of units of `2 ^ -1074` that make one. -/
def unitsPerOne : Nat := Nat.pow 2 1074

/-- The magnitude of a rank, counted in units of `2 ^ -1074`.  Below rank
`2 ^ 53` consecutive magnitudes are one unit apart, and from there on the
distance doubles after every `2 ^ 52` ranks. -/
def units (rank : Nat) : Nat :=
  if rank < Nat.pow 2 53 then rank
  else (Nat.pow 2 52 + rank % Nat.pow 2 52) * Nat.pow 2 (rank / Nat.pow 2 52 - 1)

/-- The integer nearest to `numerator / denominator`; a tie goes to the even
neighbour. -/
def roundHalfEven (numerator denominator : Nat) : Nat :=
  let quotient := numerator / denominator
  let twice := 2 * (numerator % denominator)
  if twice < denominator then quotient
  else if denominator < twice then quotient + 1
  else quotient + quotient % 2

/-- The rank nearest to `numerator / denominator` units; a tie goes to the
even rank.  The answer may lie beyond `rankBound`. -/
def nearestRank (numerator denominator : Nat) : Nat :=
  let whole := numerator / denominator
  let shift := if whole < Nat.pow 2 53 then 0 else Nat.log2 whole - 52
  shift * Nat.pow 2 52 + roundHalfEven numerator (denominator * Nat.pow 2 shift)

/-- The double of the given sign and rank, unless the rank is too large. -/
def ofRank? (negative : Bool) (rank : Nat) : Option Double :=
  if h : rank < rankBound then some ⟨negative, rank, h⟩ else none

/-- The rank of the double nearest to a natural number. -/
def rankOfNat (value : Nat) : Nat :=
  nearestRank (value * unitsPerOne) 1

/-- The rank of the product of two magnitudes, rounded once. -/
def mulRank (left right : Nat) : Nat :=
  nearestRank (units left * units right) unitsPerOne

/-- The rank of the quotient of two magnitudes, rounded once. -/
def divRank (left right : Nat) : Nat :=
  nearestRank (units left * unitsPerOne) (units right)

/-- Divides a magnitude by `10 ^ tens`.  Powers beyond `10 ^ 308` are no
doubles themselves, so they are divided out in several rounded steps. -/
def divPowerOfTen (rank tens : Nat) : Nat :=
  if rank = 0 then 0
  else if tens ≤ 308 then divRank rank (rankOfNat (Nat.pow 10 tens))
  else divPowerOfTen (divRank rank (rankOfNat (Nat.pow 10 308))) (tens - 308)
termination_by tens

/-- The double read from `significand * 10 ^ exponent`: the significand is
rounded to a double and then scaled by a rounded power of ten.  There is none
when the result is too large. -/
def ofScaled? (negative : Bool) (significand : Nat) (exponent : Int) : Option Double :=
  let rank := rankOfNat significand
  match exponent with
  | .negSucc below => ofRank? negative (divPowerOfTen rank (below + 1))
  | .ofNat tens =>
      if rank = 0 then ofRank? negative 0
      else if 308 < tens then none
      else ofRank? negative (mulRank rank (rankOfNat (Nat.pow 10 tens)))

/-- The double nearest to an integer of machine size. -/
def ofInt? (value : Int) : Option Double :=
  ofRank? (decide (value < 0)) (rankOfNat value.natAbs)

end Double

end TreeQuery
