import TreeQuery.Text.Case
import TreeQuery.Text.PrintableTable

/-!
# Quoted text for people

A quoted text shows characters that have no shape of their own by their code
point.
-/

namespace TreeQuery.Text

/-- The hexadecimal digits of a number, lower case, without leading zeros. -/
def hexText (value : Nat) : String :=
  String.ofList (Nat.toDigits 16 value)

/-- Whether a character is shown as it is.  Marks that would join the character
before them are not, nor are letters that show nothing. -/
def isPrintable (character : Char) : Bool :=
  let code := character.toNat
  if code < 128 then 32 ≤ code && code < 127
  else !(inRanges unprintableRanges code || inRanges extendingMarkRanges code ||
    inRanges ignorableRanges code)

/-- A character inside a quoted text. -/
def showChar (character : Char) : String :=
  if character = '"' then "\\\""
  else if character = '\\' then "\\\\"
  else if character = '\n' then "\\n"
  else if character = '\r' then "\\r"
  else if character = '\t' then "\\t"
  else if character.toNat = 0 then "\\0"
  else if isPrintable character then character.toString
  else "\\u\x7b" ++ hexText character.toNat ++ "\x7d"

/-- A text in double quotes. -/
def showQuoted (text : String) : String :=
  "\"" ++ String.join (text.toList.map showChar) ++ "\""

end TreeQuery.Text
