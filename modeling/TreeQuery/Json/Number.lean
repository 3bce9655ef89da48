import TreeQuery.Json.Value

/-!
# Reading numbers

A literal without a fraction and an exponent that fits in 64 bits is an
integer; every other literal is a double.  Digits are collected into a 64-bit
significand while they fit.  A further digit of the whole part only multiplies
by ten, a further digit of the fraction is dropped, and the significand is then
scaled once by its power of ten.
-/

namespace TreeQuery.Json

/-- The largest significand. -/
def significandLimit : Nat := Nat.pow 2 64 - 1

/-- The digits at the front of a text, and what follows them. -/
def spanDigits : List Char → List Nat × List Char
  | [] => ([], [])
  | character :: rest =>
      if character.isDigit then
        let (digits, remainder) := spanDigits rest
        ((character.toNat - 48) :: digits, remainder)
      else ([], character :: rest)

/-- Collects digits of the whole part: the significand, and how many digits
did not fit. -/
def collectWhole (significand : Nat) : List Nat → Nat × Nat
  | [] => (significand, 0)
  | digit :: rest =>
      if significand * 10 + digit ≤ significandLimit then
        collectWhole (significand * 10 + digit) rest
      else (significand, rest.length + 1)

/-- Collects digits of the fraction: the significand, and how many digits were
taken. -/
def collectFraction (significand : Nat) : List Nat → Nat × Nat
  | [] => (significand, 0)
  | digit :: rest =>
      if significand * 10 + digit ≤ significandLimit then
        let (collected, count) := collectFraction (significand * 10 + digit) rest
        (collected, count + 1)
      else (significand, 0)

/-- The value of decimal digits. -/
def valueOfDigits (digits : List Nat) : Nat :=
  digits.foldl (fun value digit => value * 10 + digit) 0

/-- The number without fraction and exponent.  A whole part that does not fit
in 64 bits, and the negative zero, are doubles. -/
def wholeNumber? (negative : Bool) (significand dropped : Nat) : Option Json :=
  if dropped = 0 ∧ ¬ negative then some (.int significand)
  else if dropped = 0 ∧ 0 < significand ∧ significand ≤ Nat.pow 2 63 then
    some (.int (-(significand : Int)))
  else (Double.ofScaled? negative significand dropped).map .float

/-- The fraction after the point, when there is one: its digits are required.  Gives
the significand and how many digits of the fraction it took. -/
def fraction? (significand : Nat) : List Char → Option (Nat × Option Nat × List Char)
  | '.' :: rest =>
      match spanDigits rest with
      | ([], _) => none
      | (digits, remainder) =>
          let (collected, count) := collectFraction significand digits
          some (collected, some count, remainder)
  | rest => some (significand, none, rest)

/-- The sign at the front of an exponent. -/
def exponentSign : List Char → Bool × List Char
  | '+' :: rest => (false, rest)
  | '-' :: rest => (true, rest)
  | rest => (false, rest)

/-- The exponent, when there is one: its digits are required. -/
def exponent? (characters : List Char) : Option (Option Int × List Char) :=
  match characters with
  | character :: rest =>
      if character = 'e' ∨ character = 'E' then
        let (negative, unsigned) := exponentSign rest
        match spanDigits unsigned with
        | ([], _) => none
        | (digits, remainder) =>
            let magnitude : Int := valueOfDigits digits
            some (some (if negative then -magnitude else magnitude), remainder)
      else some (none, characters)
  | [] => some (none, [])

/-- Whether the digits of a whole part are written without a leading zero. -/
def wellFormedWhole : List Nat → Bool
  | [] => false
  | [_] => true
  | digit :: _ :: _ => digit != 0

/-- A number without its sign, and what follows it.  It may be too large to have a
value. -/
def unsigned? (negative : Bool) (characters : List Char) :
    Option (Option Json × List Char) := do
  let (digits, afterWhole) := spanDigits characters
  guard (wellFormedWhole digits)
  let (whole, dropped) := collectWhole 0 digits
  let (significand, taken, afterFraction) ← fraction? whole afterWhole
  let (exponent, remainder) ← exponent? afterFraction
  match taken, exponent with
  | none, none => return (wholeNumber? negative whole dropped, remainder)
  | _, _ =>
      let scale : Int := (dropped : Int) - taken.getD 0 + exponent.getD 0
      return ((Double.ofScaled? negative significand scale).map .float, remainder)

/-- A number at the front of a text, and what follows it. -/
def number? : List Char → Option (Option Json × List Char)
  | '-' :: rest => unsigned? true rest
  | rest => unsigned? false rest

end TreeQuery.Json
