import TreeQuery.Json.Draft
import TreeQuery.Json.Number

/-!
# Reading JSON text

A text is read as a draft first.  The fuel of the mutual recursion bounds the number
of steps; one more than twice the length of the text is enough, because at most two
steps are taken between characters.  It leaves enough for a string anywhere in the
text, which takes a step for each of its characters.
-/

namespace TreeQuery.Json

/-- Whether a character is a blank between tokens. -/
def isBlank (character : Char) : Bool :=
  character = ' ' || character = '\n' || character = '\t' || character = '\r'

/-- A text without the blanks at its front. -/
def skipBlanks (characters : List Char) : List Char :=
  characters.dropWhile isBlank

/-- The value of a hexadecimal digit. -/
def hexDigit? (character : Char) : Option Nat :=
  if character.isDigit then some (character.toNat - 48)
  else if 'a' ≤ character ∧ character ≤ 'f' then some (character.toNat - 87)
  else if 'A' ≤ character ∧ character ≤ 'F' then some (character.toNat - 55)
  else none

/-- Four hexadecimal digits. -/
def hexWord? : List Char → Option (Nat × List Char)
  | a :: b :: c :: d :: rest => do
      let first ← hexDigit? a
      let second ← hexDigit? b
      let third ← hexDigit? c
      let fourth ← hexDigit? d
      return (((first * 16 + second) * 16 + third) * 16 + fourth, rest)
  | _ => none

/-- The character of an escape after its backslash and letter `u`.  A high
surrogate needs a low one right after it; half of a pair is no character. -/
def unicodeEscape? (characters : List Char) : Option (Option Char × List Char) := do
  let (unit, rest) ← hexWord? characters
  if 0xDC00 ≤ unit ∧ unit ≤ 0xDFFF then return (none, rest)
  else if 0xD800 ≤ unit ∧ unit ≤ 0xDBFF then
    match rest with
    | '\\' :: 'u' :: following =>
        let (low, remainder) ← hexWord? following
        if 0xDC00 ≤ low ∧ low ≤ 0xDFFF then
          return (some (Char.ofNat (0x10000 + (unit - 0xD800) * 0x400 + (low - 0xDC00))), remainder)
        else return (none, rest)
    | _ => return (none, rest)
  else return (some (Char.ofNat unit), rest)

/-- The character of a one-letter escape. -/
def shortEscape? (letter : Char) : Option Char :=
  match letter with
  | '"' => some '"'
  | '\\' => some '\\'
  | '/' => some '/'
  | 'b' => some '\x08'
  | 'f' => some '\x0c'
  | 'n' => some '\n'
  | 'r' => some '\r'
  | 't' => some '\t'
  | _ => none

/-- The characters of a string up to its closing quote, most recent first, unless one
of them is half of a surrogate pair. -/
def stringBody? : Nat → Option (List Char) → List Char → Option (Option (List Char) × List Char)
  | 0, _, _ => none
  | _ + 1, _, [] => none
  | _ + 1, collected, '"' :: rest => some (collected, rest)
  | fuel + 1, collected, '\\' :: 'u' :: rest => do
      let (character, remainder) ← unicodeEscape? rest
      stringBody? fuel (collected.bind fun others => character.map (· :: others)) remainder
  | fuel + 1, collected, '\\' :: letter :: rest => do
      let character ← shortEscape? letter
      stringBody? fuel (collected.map (character :: ·)) rest
  | fuel + 1, collected, character :: rest =>
      if character.toNat < 32 ∨ character = '\\' then none
      else stringBody? fuel (collected.map (character :: ·)) rest

/-- A string after its opening quote. -/
def string? (fuel : Nat) (characters : List Char) : Option (Option String × List Char) := do
  let (collected, rest) ← stringBody? fuel (some []) characters
  return (collected.map fun found => String.ofList found.reverse, rest)

/-- What follows a fixed word. -/
def keyword? (expected : List Char) (characters : List Char) : Option (List Char) :=
  if expected.isPrefixOf characters then some (characters.drop expected.length) else none

namespace Draft

mutual

/-- A value at the front of a text. -/
def take? : Nat → List Char → Option (Draft × List Char)
  | 0, _ => none
  | fuel + 1, characters =>
      match skipBlanks characters with
      | 'n' :: rest => (keyword? "ull".toList rest).map (null, ·)
      | 't' :: rest => (keyword? "rue".toList rest).map (bool true, ·)
      | 'f' :: rest => (keyword? "alse".toList rest).map (bool false, ·)
      | '"' :: rest => (string? fuel rest).map fun (text, remainder) => (string text, remainder)
      | '[' :: rest =>
          match skipBlanks rest with
          | ']' :: remainder => some (array [], remainder)
          | _ => (takeItems? fuel rest).map fun (items, remainder) => (array items, remainder)
      | '\x7b' :: rest =>
          match skipBlanks rest with
          | '\x7d' :: remainder => some (object [], remainder)
          | _ => (takeFields? fuel rest).map fun (fields, remainder) => (object fields, remainder)
      | rest => (number? rest).map fun (value, remainder) => (number value, remainder)

/-- The items of an array up to its closing bracket. -/
def takeItems? : Nat → List Char → Option (List Draft × List Char)
  | 0, _ => none
  | fuel + 1, characters => do
      let (item, rest) ← take? fuel characters
      match skipBlanks rest with
      | ']' :: remainder => return ([item], remainder)
      | ',' :: following =>
          let (items, remainder) ← takeItems? fuel following
          return (item :: items, remainder)
      | _ => none

/-- The fields of an object up to its closing brace. -/
def takeFields? : Nat → List Char → Option (List (Option String × Draft) × List Char)
  | 0, _ => none
  | fuel + 1, characters =>
      match skipBlanks characters with
      | '"' :: afterQuote => do
          let (key, afterKey) ← string? fuel afterQuote
          match skipBlanks afterKey with
          | ':' :: afterColon =>
              let (value, rest) ← take? fuel afterColon
              match skipBlanks rest with
              | '\x7d' :: remainder => return ([(key, value)], remainder)
              | ',' :: following =>
                  let (fields, remainder) ← takeFields? fuel following
                  return ((key, value) :: fields, remainder)
              | _ => none
          | _ => none
      | _ => none

end

/-- The draft of a whole text. -/
def read? (text : String) : Option Draft := do
  let characters := text.toList
  let (draft, rest) ← take? (2 * characters.length + 1) characters
  guard (skipBlanks rest).isEmpty
  return draft

end Draft

/-- The value of a whole text, with sorted fields. -/
def parse? (text : String) : Option Json := do
  let draft ← Draft.read? text
  return (← draft.value? depthLimit).normalize

end TreeQuery.Json
