import TreeQuery.Json.Reader

/-!
# Strings and keys of TOML

What stands between the signs of a document: blanks, comments, strings in four
kinds of quotes, and keys.  Every reader takes its part from the front of a text
and gives what follows it.
-/

namespace TreeQuery.Toml

/-! ## Blanks and lines -/

/-- Whether a character is a blank within a line. -/
def isBlank (character : Char) : Bool :=
  character = ' ' || character = '\t'

/-- A text without the blanks at its front. -/
def skipBlanks (characters : List Char) : List Char :=
  characters.dropWhile isBlank

/-- Whether a character may stand in a comment or in a string: controls may not,
except for the tab. -/
def isTextChar (character : Char) : Bool :=
  character = '\t' || (32 ≤ character.toNat && character.toNat != 127)

/-- What follows the end of a line: blanks and a comment may come before it. -/
def endOfLine? (characters : List Char) : Option (List Char) :=
  let rest := match skipBlanks characters with
    | '#' :: comment => comment.dropWhile isTextChar
    | other => other
  match rest with
  | [] => some []
  | '\n' :: following => some following
  | '\r' :: '\n' :: following => some following
  | _ => none

/-- A text without blanks, line ends and comments at its front. -/
def skipLines : Nat → List Char → List Char
  | 0, characters => characters
  | fuel + 1, characters =>
      match skipBlanks characters with
      | '\n' :: rest => skipLines fuel rest
      | '\r' :: '\n' :: rest => skipLines fuel rest
      | '#' :: comment => skipLines fuel (comment.dropWhile isTextChar)
      | other => other

/-- A text without blanks and line ends at its front. -/
def skipSpace : List Char → List Char
  | '\r' :: '\n' :: rest => skipSpace rest
  | character :: rest =>
      if isBlank character || character = '\n' then skipSpace rest else character :: rest
  | [] => []

/-! ## Strings -/

/-- The character of a code point written with the given number of hexadecimal
digits. -/
def codePoint? (digits : Nat) (characters : List Char) : Option (Char × List Char) := do
  let written := characters.take digits
  guard (written.length = digits)
  let values ← written.mapM Json.hexDigit?
  let code := values.foldl (fun value digit => value * 16 + digit) 0
  guard (code.isValidChar)
  return (Char.ofNat code, characters.drop digits)

/-- The character of an escape after its backslash. -/
def escape? : List Char → Option (Char × List Char)
  | 'b' :: rest => some ('\x08', rest)
  | 't' :: rest => some ('\t', rest)
  | 'n' :: rest => some ('\n', rest)
  | 'f' :: rest => some ('\x0c', rest)
  | 'r' :: rest => some ('\r', rest)
  | 'e' :: rest => some ('\x1b', rest)
  | '"' :: rest => some ('"', rest)
  | '\\' :: rest => some ('\\', rest)
  | 'x' :: rest => codePoint? 2 rest
  | 'u' :: rest => codePoint? 4 rest
  | 'U' :: rest => codePoint? 8 rest
  | _ => none

/-- The characters of a basic string up to its closing quote. -/
def basicString? : Nat → List Char → Option (List Char × List Char)
  | 0, _ => none
  | fuel + 1, characters =>
      match characters with
      | '"' :: rest => some ([], rest)
      | '\\' :: rest => do
          let (character, after) ← escape? rest
          let (others, remainder) ← basicString? fuel after
          return (character :: others, remainder)
      | character :: rest => do
          guard (isTextChar character)
          let (others, remainder) ← basicString? fuel rest
          return (character :: others, remainder)
      | [] => none

/-- The characters of a literal string up to its closing quote. -/
def literalString? : List Char → Option (List Char × List Char)
  | [] => none
  | '\'' :: rest => some ([], rest)
  | character :: rest =>
      if isTextChar character then
        (literalString? rest).map fun (others, remainder) => (character :: others, remainder)
      else none

/-- A string in either kind of single quotes. -/
def lineString? : List Char → Option (String × List Char)
  | '"' :: rest => do
      let (text, remainder) ← basicString? (rest.length + 1) rest
      return (String.ofList text, remainder)
  | '\'' :: rest => do
      let (text, remainder) ← literalString? rest
      return (String.ofList text, remainder)
  | _ => none

/-- The end of a string in triple quotes, before which one or two quotes may stand. -/
def closing? (quote : Char) (characters : List Char) : Option (List Char × List Char) :=
  let count := min 5 (characters.takeWhile (· = quote)).length
  if count < 3 then none
  else some (List.replicate (count - 3) quote, characters.drop count)

/-- The line end at the front of a text. -/
def lineEnd? : List Char → Option (List Char)
  | '\n' :: rest => some rest
  | '\r' :: '\n' :: rest => some rest
  | _ => none

/-- What follows a backslash at the end of a line: the next character that is
neither blank nor a line end. -/
def continued? (characters : List Char) : Option (List Char) :=
  (lineEnd? (skipBlanks characters)).map skipSpace

/-- The characters of a string in triple quotes up to its end.  Only in a basic
string a backslash has a meaning. -/
def tripleString? (quote : Char) : Nat → List Char → Option (List Char × List Char)
  | 0, _ => none
  | fuel + 1, characters =>
      match closing? quote characters, lineEnd? characters with
      | some found, _ => some found
      | none, some rest => do
          let (others, remainder) ← tripleString? quote fuel rest
          return ('\n' :: others, remainder)
      | none, none =>
          match characters, quote with
          | '\\' :: rest, '"' =>
              match continued? rest with
              | some after => tripleString? quote fuel after
              | none => do
                  let (character, after) ← escape? rest
                  let (others, remainder) ← tripleString? quote fuel after
                  return (character :: others, remainder)
          | character :: rest, _ => do
              guard (isTextChar character)
              let (others, remainder) ← tripleString? quote fuel rest
              return (character :: others, remainder)
          | [], _ => none

/-- A string in triple quotes after its opening quotes.  A line end right behind
them does not count. -/
def blockString? (quote : Char) (characters : List Char) : Option (String × List Char) := do
  let start := (lineEnd? characters).getD characters
  let (text, remainder) ← tripleString? quote (start.length + 1) start
  return (String.ofList text, remainder)

/-- A string. -/
def string? : List Char → Option (String × List Char)
  | '"' :: '"' :: '"' :: rest => blockString? '"' rest
  | '\'' :: '\'' :: '\'' :: rest => blockString? '\'' rest
  | characters => lineString? characters

/-! ## Keys -/

/-- Whether a character may be part of a key without quotes. -/
def isKeyChar (character : Char) : Bool :=
  character.isAlphanum || character = '_' || character = '-'

/-- One part of a key. -/
def keyPart? (characters : List Char) : Option (String × List Char) :=
  match characters.takeWhile isKeyChar with
  | [] => lineString? characters
  | name => some (String.ofList name, characters.dropWhile isKeyChar)

/-- How many parts a key may have. -/
def keyLimit : Nat := 80

/-- The parts of a key, which are separated by dots, at most as many as given. -/
def keyParts? : Nat → List Char → Option (List String × List Char)
  | 0, _ => none
  | fuel + 1, characters => do
      let (part, rest) ← keyPart? (skipBlanks characters)
      match skipBlanks rest with
      | '.' :: following =>
          let (parts, remainder) ← keyParts? fuel following
          return (part :: parts, remainder)
      | remainder => return ([part], remainder)

/-- A key. -/
def key? (characters : List Char) : Option (List String × List Char) :=
  keyParts? keyLimit characters

end TreeQuery.Toml
