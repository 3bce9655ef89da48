import Mathlib
import TreeQuery.Sql.Token

/-!
# Lexing

How a dialect splits a text: names between its delimiters and strings between apostrophes, both
with the closing one doubled inside, words, numbers, marks and single blanks.  Every reader takes
the longest front that it can and gives what follows, and a text is lexed when nothing is left.
-/

namespace TreeQuery.Sql

/-- A unit of a text. -/
inductive Lexeme where
  | word (spelling : List Char)
  | number (spelling : List Char)
  | identifier (name : String)
  | text (content : String)
  | sign (mark : Mark)
  | blank (character : Char)
  deriving DecidableEq

namespace Lexing

/-! ## Words and numbers -/

/-- A character that may begin a word. -/
def beginsWord (character : Char) : Bool :=
  character.isAlpha || character = '_'

/-- A character that may stand in a word. -/
def continuesWord (character : Char) : Bool :=
  character.isAlphanum || character = '_'

/-- One of the given characters at the front of a text, if there is one. -/
def spanOneOf (choices : List Char) : List Char → List Char × List Char
  | [] => ([], [])
  | character :: rest =>
      if character ∈ choices then ([character], rest) else ([], character :: rest)

/-- The digits at the front of a text. -/
def spanDigits (characters : List Char) : List Char × List Char :=
  (characters.takeWhile Char.isDigit, characters.dropWhile Char.isDigit)

/-- A point and digits at the front of a text, if they are there. -/
def spanFraction (characters : List Char) : List Char × List Char :=
  let (point, rest) := spanOneOf ['.'] characters
  let (digits, after) := spanDigits rest
  if point.isEmpty || digits.isEmpty then ([], characters) else (point ++ digits, after)

/-- The letter of an exponent, a sign or none, and digits at the front of a text, if they are
there. -/
def spanExponent (characters : List Char) : List Char × List Char :=
  let (letter, rest) := spanOneOf ['e', 'E'] characters
  let (sign, unsigned) := spanOneOf ['+', '-'] rest
  let (digits, after) := spanDigits unsigned
  if letter.isEmpty || digits.isEmpty then ([], characters)
  else (letter ++ sign ++ digits, after)

/-- A number at the front of a text: a minus sign or none, digits, and a fraction and an exponent
if they are there. -/
def number? (characters : List Char) : Option (List Char × List Char) :=
  let (sign, unsigned) := spanOneOf ['-'] characters
  let (whole, afterWhole) := spanDigits unsigned
  let (fraction, afterFraction) := spanFraction afterWhole
  let (exponent, after) := spanExponent afterFraction
  if whole.isEmpty then none else some (sign ++ whole ++ fraction ++ exponent, after)

/-! ## Marks -/

/-- A mark at the front of a text, the longer one if there are two. -/
def mark? : List Char → Option (Mark × List Char)
  | '<' :: '>' :: rest => some (.ne, rest)
  | '<' :: '=' :: rest => some (.le, rest)
  | '>' :: '=' :: rest => some (.ge, rest)
  | '<' :: rest => some (.lt, rest)
  | '>' :: rest => some (.gt, rest)
  | '=' :: rest => some (.eq, rest)
  | ',' :: rest => some (.comma, rest)
  | '.' :: rest => some (.dot, rest)
  | '*' :: rest => some (.star, rest)
  | '(' :: rest => some (.open, rest)
  | ')' :: rest => some (.close, rest)
  | _ => none

/-! ## Strings with escapes -/

/-- What a letter behind a backslash stands for.  The escapes of the wildcards keep theirs. -/
def escaped : Char → List Char
  | '0' => [Char.ofNat 0]
  | 'b' => [Char.ofNat 8]
  | 'n' => ['\n']
  | 'r' => ['\r']
  | 't' => ['\t']
  | 'Z' => [Char.ofNat 26]
  | '%' => ['\\', '%']
  | '_' => ['\\', '_']
  | other => [other]

/-- Reads a string in which a backslash escapes, after its opening apostrophe. -/
def unescaped? : List Char → Option (List Char × List Char)
  | [] => none
  | '\\' :: letter :: rest =>
      (unescaped? rest).map fun (content, after) => (escaped letter ++ content, after)
  | '\'' :: '\'' :: rest =>
      (unescaped? rest).map fun (content, after) => ('\'' :: content, after)
  | '\'' :: rest => some ([], rest)
  | character :: rest =>
      (unescaped? rest).map fun (content, after) => (character :: content, after)

end Lexing

open Lexing

namespace Dialect

/-! ## The lexer of a dialect -/

/-- The character that opens a name. -/
def opening : Dialect → Char
  | duckdb | postgres | sqlite => '"'
  | mysql => Char.ofNat 96
  | tsql => '['

/-- The character that closes a name. -/
def closing : Dialect → Char
  | duckdb | postgres | sqlite => '"'
  | mysql => Char.ofNat 96
  | tsql => ']'

/-- Reads a string after its opening apostrophe. -/
def unquoted? : Dialect → List Char → Option (List Char × List Char)
  | mysql => unescaped?
  | duckdb | postgres | tsql | sqlite => unenclosed? '\''

/-- Whether a text begins with the letter that may stand in front of a string. -/
def prefixed (dialect : Dialect) : List Char → Bool
  | 'N' :: '\'' :: _ => dialect = .tsql
  | _ => false

/-- The unit at the front of a text, and what follows it. -/
def next? (dialect : Dialect) : List Char → Option (Lexeme × List Char)
  | [] => none
  | first :: rest =>
      if first.isWhitespace then some (.blank first, rest)
      else if first = dialect.opening then
        (unenclosed? dialect.closing rest).map fun (name, after) =>
          (.identifier (String.ofList name), after)
      else if first = '\'' then
        (dialect.unquoted? rest).map fun (content, after) =>
          (.text (String.ofList content), after)
      else if dialect.prefixed (first :: rest) then
        (dialect.unquoted? rest.tail).map fun (content, after) =>
          (.text (String.ofList content), after)
      else if beginsWord first then
        some (.word (first :: rest.takeWhile continuesWord), rest.dropWhile continuesWord)
      else if first = '-' || first.isDigit then
        (number? (first :: rest)).map fun (spelling, after) => (.number spelling, after)
      else (mark? (first :: rest)).map fun (mark, after) => (.sign mark, after)

end Dialect

/-! ## The lexer goes on -/

namespace Lexing

variable {α β : Type}

/-- A reader leaves fewer characters than a number of them. -/
def Leaves (read : Option (α × List Char)) (count : Nat) : Prop :=
  ∀ found ∈ read, found.2.length < count

theorem Leaves.map {read : Option (α × List Char)} {count more : Nat} (hread : Leaves read count)
    (hcount : count ≤ more) (change : α → β) :
    Leaves (read.map fun (content, after) => (change content, after)) more := by
  intro found hfound
  obtain ⟨inner, hinner, rfl⟩ := Option.mem_map.mp hfound
  exact (hread inner hinner).trans_le hcount

theorem leaves_none (count : Nat) : Leaves (none : Option (α × List Char)) count :=
  fun _ hfound => nomatch hfound

theorem leaves_some {content : α} {after : List Char} {count : Nat}
    (hafter : after.length < count) : Leaves (some (content, after)) count := by
  rintro _ ⟨⟩
  exact hafter

theorem leaves_unenclosed? (closing : Char) (characters : List Char) :
    Leaves (unenclosed? closing characters) characters.length := by
  fun_induction unenclosed? closing characters with
  | case1 | case3 => exact leaves_none _
  | case2 | case5 => exact leaves_some (by simp)
  | case4 rest ih => exact ih.map (Nat.le_add_right _ 2) _
  | case6 character next rest hne ih => exact ih.map (Nat.le_succ _) _

theorem leaves_unescaped? (characters : List Char) :
    Leaves (unescaped? characters) characters.length := by
  fun_induction unescaped? characters with
  | case1 => exact leaves_none _
  | case2 letter rest ih => exact ih.map (Nat.le_add_right _ 2) _
  | case3 rest ih => exact ih.map (Nat.le_add_right _ 2) _
  | case4 => exact leaves_some (by simp)
  | case5 character rest _ _ _ ih => exact ih.map (Nat.le_succ _) _

theorem leaves_mark? (characters : List Char) :
    Leaves (mark? characters) characters.length := by
  unfold mark?
  split
  all_goals
    first
    | exact leaves_none _
    | exact leaves_some (by simp)

theorem spanOneOf_append (choices characters : List Char) :
    (spanOneOf choices characters).1 ++ (spanOneOf choices characters).2 = characters := by
  cases characters with
  | nil => rfl
  | cons character rest =>
      rw [spanOneOf]
      split <;> rfl

theorem spanDigits_append (characters : List Char) :
    (spanDigits characters).1 ++ (spanDigits characters).2 = characters :=
  List.takeWhile_append_dropWhile

theorem spanFraction_append (characters : List Char) :
    (spanFraction characters).1 ++ (spanFraction characters).2 = characters := by
  rw [spanFraction]
  dsimp only
  split
  · rfl
  · rw [List.append_assoc, spanDigits_append, spanOneOf_append]

theorem spanExponent_append (characters : List Char) :
    (spanExponent characters).1 ++ (spanExponent characters).2 = characters := by
  rw [spanExponent]
  dsimp only
  split
  · rfl
  · rw [List.append_assoc, List.append_assoc, spanDigits_append, spanOneOf_append, spanOneOf_append]

theorem leaves_number? (characters : List Char) :
    Leaves (number? characters) characters.length := by
  rw [number?]
  dsimp only
  split
  · exact leaves_none _
  · next hwhole =>
      refine leaves_some ?_
      have hparts := congrArg List.length (spanOneOf_append ['-'] characters)
      have hdigits := congrArg List.length
        (spanDigits_append (spanOneOf ['-'] characters).2)
      have hfraction := congrArg List.length
        (spanFraction_append (spanDigits (spanOneOf ['-'] characters).2).2)
      have hexponent := congrArg List.length (spanExponent_append
        (spanFraction (spanDigits (spanOneOf ['-'] characters).2).2).2)
      have hpositive := List.length_pos_iff.mpr (mt List.isEmpty_iff.mpr hwhole)
      simp only [List.length_append] at hparts hdigits hfraction hexponent
      omega

end Lexing

namespace Dialect

theorem leaves_unquoted? (dialect : Dialect) (characters : List Char) :
    Leaves (dialect.unquoted? characters) characters.length := by
  cases dialect with
  | mysql => exact leaves_unescaped? characters
  | duckdb | postgres | tsql | sqlite => exact leaves_unenclosed? _ characters

theorem leaves_next? (dialect : Dialect) (characters : List Char) :
    Leaves (dialect.next? characters) characters.length := by
  cases characters with
  | nil => exact leaves_none _
  | cons first rest =>
      have htail : rest.tail.length ≤ (first :: rest).length := by
        rw [List.length_tail, List.length_cons]
        omega
      have hword := List.length_dropWhile_le continuesWord rest
      rw [next?]
      split_ifs
      · exact leaves_some (Nat.lt_succ_self _)
      · exact (leaves_unenclosed? _ rest).map (Nat.le_succ _) fun name =>
          Lexeme.identifier (String.ofList name)
      · exact (dialect.leaves_unquoted? rest).map (Nat.le_succ _) fun content =>
          Lexeme.text (String.ofList content)
      · exact (dialect.leaves_unquoted? rest.tail).map htail fun content =>
          Lexeme.text (String.ofList content)
      · exact leaves_some (Nat.lt_succ_of_le hword)
      · exact (leaves_number? _).map le_rfl Lexeme.number
      · exact (leaves_mark? _).map le_rfl Lexeme.sign

/-- The units of a text, if all of it can be split into units. -/
def lex (dialect : Dialect) (characters : List Char) : Option (List Lexeme) :=
  if characters.isEmpty then some []
  else
    match _hnext : dialect.next? characters with
    | none => none
    | some (lexeme, after) => (dialect.lex after).map (lexeme :: ·)
termination_by characters.length
decreasing_by exact dialect.leaves_next? characters _ ‹_›

theorem lex_nil (dialect : Dialect) : dialect.lex [] = some [] := by
  rw [lex]
  rfl

theorem lex_of_next? {dialect : Dialect} {characters after : List Char} {lexeme : Lexeme}
    (hnext : dialect.next? characters = some (lexeme, after)) :
    dialect.lex characters = (dialect.lex after).map (lexeme :: ·) := by
  have hsome : characters.isEmpty = false := by
    cases characters with
    | nil => cases hnext
    | cons => rfl
  rw [lex, hsome]
  split
  · next hempty => cases hempty
  · split
    · next hnone => rw [hnext] at hnone; cases hnone
    · next found hfound => rw [hnext] at hfound; cases hfound; rfl

end Dialect

end TreeQuery.Sql
