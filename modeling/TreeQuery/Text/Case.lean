import TreeQuery.Text.CaseTable
import TreeQuery.Text.LetterTable

/-!
# Upper case, lower case, letters

Case mappings work character by character and may lengthen a text.  The one
mapping that looks around is the lower case of the capital sigma, which has a
form of its own at the end of a word.
-/

namespace TreeQuery.Text

/-- Whether a code point lies in one of the ranges. -/
def inRanges (ranges : List (Nat × Nat)) (code : Nat) : Bool :=
  ranges.any fun range => range.1 ≤ code && code ≤ range.2

/-- The code point a list of runs maps a code point to, if any run has it. -/
def shifted? (runs : List CaseRun) (code : Nat) : Option Nat :=
  (runs.find? fun run =>
    run.first ≤ code && code ≤ run.last && (code - run.first) % run.stride == 0).map
      fun run => ((code : Int) + run.shift).toNat

/-- The characters a code point is mapped to, by the expansions first and by
the runs second. -/
def mapCode (expansions : List (Nat × List Nat)) (runs : List CaseRun) (character : Char) :
    List Char :=
  match expansions.lookup character.toNat with
  | some codes => codes.map Char.ofNat
  | none =>
      match shifted? runs character.toNat with
      | some code => [Char.ofNat code]
      | none => [character]

/-- The uppercase form of a character. -/
def upperChar (character : Char) : List Char :=
  if character.toNat < 128 then [character.toUpper]
  else mapCode uppercaseExpansions uppercaseRuns character

/-- The lowercase form of a character on its own. -/
def lowerChar (character : Char) : List Char :=
  if character.toNat < 128 then [character.toLower]
  else mapCode lowercaseExpansions lowercaseRuns character

/-- Whether a character has the property Cased. -/
def isCased (character : Char) : Bool :=
  character.isAlpha || inRanges casedRanges character.toNat

/-- Whether a character has the property Case_Ignorable. -/
def isCaseIgnorable (character : Char) : Bool :=
  ['\'', '.', ':', '^', (Char.ofNat 96)].contains character ||
    inRanges caseIgnorableRanges character.toNat

/-- Whether the nearest character that is not ignorable is cased. -/
def nextIsCased (characters : List Char) : Bool :=
  match characters.dropWhile isCaseIgnorable with
  | [] => false
  | character :: _ => isCased character

/-- The lowercase form of a text whose characters before it are given in
reverse. -/
def lowerAfter (before : List Char) : List Char → List Char
  | [] => []
  | character :: rest =>
      let lowered :=
        if character = 'Σ' then
          if nextIsCased before && !nextIsCased rest then ['ς'] else ['σ']
        else lowerChar character
      lowered ++ lowerAfter (character :: before) rest

/-- The uppercase form of a text. -/
def uppercase (text : String) : String :=
  String.ofList (text.toList.flatMap upperChar)

/-- The lowercase form of a text. -/
def lowercase (text : String) : String :=
  String.ofList (lowerAfter [] text.toList)

/-- Whether a character is a letter or a number. -/
def isAlphanumeric (character : Char) : Bool :=
  character.isAlphanum || inRanges alphanumericRanges character.toNat

end TreeQuery.Text
