import TreeQuery.Text.Case

/-!
# Variables in settings

A text may refer to variables of the environment, as `$name` or with the name in
braces.  It is read from left to right once; the values of variables are not
searched for references again.
-/

namespace TreeQuery.Settings

/-- The variables that are set to a text, with their values. -/
abbrev Variables := List (String × String)

/-- A piece of a text: a character that stands for itself, or a reference. -/
inductive Piece where
  | character (character : Char)
  | reference (name : String)
  deriving DecidableEq

/-- Whether a character may be part of a name without braces. -/
def isNameChar (character : Char) : Bool :=
  Text.isAlphanumeric character || character = '_'

/-- Whether a character is inside a name in braces. -/
def isInsideBraces (character : Char) : Bool :=
  character != '\x7d'

/-- Dropping characters leaves no more than there were. -/
theorem length_dropWhile_le (test : Char → Bool) (text : List Char) :
    (text.dropWhile test).length ≤ text.length :=
  (List.dropWhile_suffix test).length_le

/-- The pieces of a text.  A name in braces ends at the first closing brace, or at
the end of the text; a dollar sign without a name stands for itself. -/
def pieces : List Char → List Piece
  | [] => []
  | '$' :: '\x7b' :: rest =>
      .reference (String.ofList (rest.takeWhile isInsideBraces)) ::
        pieces ((rest.dropWhile isInsideBraces).drop 1)
  | '$' :: rest =>
      let name := rest.takeWhile isNameChar
      if name.isEmpty then .character '$' :: pieces rest
      else .reference (String.ofList name) :: pieces (rest.dropWhile isNameChar)
  | character :: rest => .character character :: pieces rest
termination_by text => text.length
decreasing_by
  · have := length_dropWhile_le isInsideBraces rest
    simp only [List.length_cons, List.length_drop]
    omega
  · simp
  · have := length_dropWhile_le isNameChar rest
    simp only [List.length_cons]
    omega
  · simp

/-- The variables that a text refers to. -/
def references (text : String) : List String :=
  (pieces text.toList).filterMap fun piece =>
    match piece with
    | .reference name => some name
    | .character _ => none

/-- The text of pieces, or the first variable that is not set. -/
def substitute (environment : Variables) : List Piece → Except String String
  | [] => .ok ""
  | .character character :: rest => do
      return character.toString ++ (← substitute environment rest)
  | .reference name :: rest =>
      match List.lookup name environment with
      | none => .error name
      | some value => do return value ++ (← substitute environment rest)

/-- The text with the values of its variables, or the first variable that is not
set. -/
def expand (environment : Variables) (text : String) : Except String String :=
  substitute environment (pieces text.toList)

end TreeQuery.Settings
