import TreeQuery.Toml.Text

/-!
# Words of TOML

A word without quotes is a truth value, an integer, a float, or a date or time.
No setting is a float or a date, so all that matters about those is whether they
are well formed.
-/

namespace TreeQuery.Toml

/-- Whether a character may be part of a word. -/
def isWordChar (character : Char) : Bool :=
  character.isAlphanum || ['_', '+', '-', '.', ':'].contains character

/-! ## Numbers -/

/-- The value of a digit in any base up to sixteen. -/
def digit? (base : Nat) (character : Char) : Option Nat := do
  let value ← Json.hexDigit? character
  guard (value < base)
  return value

/-- Digits of a base, with single underscores between them. -/
def digits? (base : Nat) : List Char → Option (List Nat)
  | [] => none
  | [character] => (digit? base character).map ([·])
  | character :: '_' :: rest => do
      return (← digit? base character) :: (← digits? base rest)
  | character :: rest => do
      return (← digit? base character) :: (← digits? base rest)

/-- The number that digits of a base spell. -/
def valueOf (base : Nat) (digits : List Nat) : Nat :=
  digits.foldl (fun value digit => value * base + digit) 0

/-- Digits of a decimal number without a leading zero. -/
def decimalDigits? (characters : List Char) : Option (List Nat) := do
  let digits ← digits? 10 characters
  guard (digits.length = 1 ∨ digits.head? ≠ some 0)
  return digits

/-- A text without its sign, and whether that was a minus. -/
def unsigned : List Char → Bool × List Char
  | '+' :: rest => (false, rest)
  | '-' :: rest => (true, rest)
  | rest => (false, rest)

/-- An integer that fits in 128 bits, with or without a sign. -/
def integer? (characters : List Char) : Option Int := do
  let value ← match characters with
    | '0' :: 'x' :: rest => (digits? 16 rest).map fun digits => (valueOf 16 digits : Int)
    | '0' :: 'o' :: rest => (digits? 8 rest).map fun digits => (valueOf 8 digits : Int)
    | '0' :: 'b' :: rest => (digits? 2 rest).map fun digits => (valueOf 2 digits : Int)
    | _ =>
        let (negative, rest) := unsigned characters
        (decimalDigits? rest).map fun digits =>
          if negative then -(valueOf 10 digits : Int) else valueOf 10 digits
  guard (-(Int.pow 2 127) ≤ value ∧ value < Int.pow 2 128)
  return value

/-- Whether `significand * 10 ^ exponent` has a double: it lies below the middle
between the largest double and the next power of two. -/
def hasDouble (significand : Nat) (exponent : Int) : Bool :=
  let bound := Nat.pow 2 1024 - Nat.pow 2 970
  match exponent with
  | .ofNat tens => significand = 0 || (tens ≤ 308 && significand * Nat.pow 10 tens < bound)
  | .negSucc below =>
      let decimals := (Nat.toDigits 10 significand).length
      decimals ≤ below + 309 || significand < bound * Nat.pow 10 (below + 1)

/-- The exponent after its letter. -/
def exponent? (characters : List Char) : Option Int :=
  let (negative, rest) := unsigned characters
  (digits? 10 rest).map fun digits =>
    if negative then -(valueOf 10 digits : Int) else valueOf 10 digits

/-- Whether a character begins an exponent. -/
def isExponentMark (character : Char) : Bool :=
  character = 'e' || character = 'E'

/-- The digits of a fraction after its point and the exponent behind them, which
may be missing. -/
def fraction? (characters : List Char) : Option (List Nat × Int) := do
  let digits ← digits? 10 (characters.takeWhile fun character => !isExponentMark character)
  match characters.dropWhile fun character => !isExponentMark character with
  | [] => return (digits, 0)
  | _ :: exponent => return (digits, ← exponent? exponent)

/-- Whether a text is a float. -/
def isFloat (characters : List Char) : Bool :=
  let (_, rest) := unsigned characters
  let isMark (character : Char) : Bool := character = '.' || isExponentMark character
  if rest = "inf".toList || rest = "nan".toList then true
  else match decimalDigits? (rest.takeWhile fun character => !isMark character) with
    | none => false
    | some whole =>
        match rest.dropWhile fun character => !isMark character with
        | '.' :: fraction =>
            match fraction? fraction with
            | none => false
            | some (digits, exponent) =>
                hasDouble (valueOf 10 (whole ++ digits)) (exponent - digits.length)
        | _ :: exponent => (exponent? exponent).any (hasDouble (valueOf 10 whole))
        | [] => false

/-! ## Dates -/

/-- A number of exactly so many digits at the front of a text. -/
def fixed? (count : Nat) (characters : List Char) : Option (Nat × List Char) := do
  let written := characters.take count
  guard (written.length = count)
  return (valueOf 10 (← written.mapM (digit? 10)), characters.drop count)

/-- What follows an expected character. -/
def expect? (expected : Char) : List Char → Option (List Char)
  | [] => none
  | character :: rest => if character = expected then some rest else none

/-- How many days a month has. -/
def daysIn (year month : Nat) : Nat :=
  if month = 2 then if year % 4 = 0 ∧ (year % 100 ≠ 0 ∨ year % 400 = 0) then 29 else 28
  else if [4, 6, 9, 11].contains month then 30
  else 31

/-- What follows a date. -/
def afterDate? (characters : List Char) : Option (List Char) := do
  let (year, rest) ← fixed? 4 characters
  let (month, rest) ← fixed? 2 (← expect? '-' rest)
  let (day, rest) ← fixed? 2 (← expect? '-' rest)
  guard (1 ≤ month ∧ month ≤ 12 ∧ 1 ≤ day ∧ day ≤ daysIn year month)
  return rest

/-- What follows the fraction of a second, which may be missing. -/
def afterFraction? : List Char → Option (List Char)
  | '.' :: rest =>
      if (rest.takeWhile Char.isDigit).isEmpty then none else some (rest.dropWhile Char.isDigit)
  | rest => some rest

/-- What follows a time.  Seconds may be missing, and there may be a leap second. -/
def afterTime? (characters : List Char) : Option (List Char) := do
  let (hour, rest) ← fixed? 2 characters
  let (minute, rest) ← fixed? 2 (← expect? ':' rest)
  guard (hour ≤ 23 ∧ minute ≤ 59)
  match rest with
  | ':' :: seconds =>
      let (second, rest) ← fixed? 2 seconds
      guard (second ≤ 60)
      afterFraction? rest
  | _ => return rest

/-- Whether a text is a distance from the time of the zero meridian, or empty. -/
def isOffset (characters : List Char) : Bool :=
  match characters with
  | [] => true
  | ['Z'] => true
  | ['z'] => true
  | sign :: rest =>
      (sign = '+' || sign = '-') && Option.isSome do
        let (hours, rest) ← fixed? 2 rest
        let (minutes, rest) ← fixed? 2 (← expect? ':' rest)
        guard (rest.isEmpty ∧ hours ≤ 24 ∧ minutes ≤ 59 ∧ hours * 60 + minutes ≤ 1440)

/-- Whether a text is a date and nothing else. -/
def isDate (characters : List Char) : Bool :=
  afterDate? characters == some []

/-- Whether a text is a date, a time, or both. -/
def isMoment (characters : List Char) : Bool :=
  match afterDate? characters with
  | none => afterTime? characters == some []
  | some [] => true
  | some (separator :: rest) =>
      ['T', 't', ' '].contains separator && (afterTime? rest).any isOffset

/-! ## Words -/

/-- The value of a word.  A float becomes null, and a date a table of one field that
no setting has. -/
def word? (characters : List Char) : Option Json :=
  if characters = "true".toList then some (.bool true)
  else if characters = "false".toList then some (.bool false)
  else match integer? characters with
    | some value => some (.int value)
    | none =>
        if isFloat characters then some .null
        else if isMoment characters then
          some (.object [("date", .string (String.ofList characters))])
        else none

/-- The word at the front of a text.  The time of a date may follow it after a
blank. -/
def spanWord (characters : List Char) : List Char × List Char :=
  let word := characters.takeWhile isWordChar
  let rest := characters.dropWhile isWordChar
  match isDate word, rest with
  | true, ' ' :: digit :: following =>
      if digit.isDigit then
        (word ++ ' ' :: (digit :: following).takeWhile isWordChar,
          (digit :: following).dropWhile isWordChar)
      else (word, rest)
  | _, _ => (word, rest)

end TreeQuery.Toml
