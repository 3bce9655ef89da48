import TreeQuery.Decimal.Layout
import TreeQuery.Json.Value

/-!
# JSON text

The compact form has no blanks.  The indented form puts every item and every
field on a line of its own, two blanks deeper than its container; empty
containers stay on one line.  Characters outside ASCII are written raw.
-/

namespace TreeQuery.Json

/-- Doubles in JSON text are positional from `0.00001` up to sixteen digits,
and exponents carry their sign. -/
def floatLayout : Decimal.Layout := ⟨-4, 16, true⟩

/-- Two hexadecimal digits of a number below 256. -/
def hexByte (value : Nat) : List Char :=
  [Nat.digitChar (value / 16 % 16), Nat.digitChar (value % 16)]

/-- A character inside a quoted string. -/
def escapeChar (character : Char) : List Char :=
  if character = '"' then ['\\', '"']
  else if character = '\\' then ['\\', '\\']
  else if character = '\n' then ['\\', 'n']
  else if character = '\r' then ['\\', 'r']
  else if character = '\t' then ['\\', 't']
  else if character = '\x08' then ['\\', 'b']
  else if character = '\x0c' then ['\\', 'f']
  else if character.toNat < 32 then ['\\', 'u', '0', '0'] ++ hexByte character.toNat
  else [character]

/-- A string in double quotes. -/
def quote (text : String) : String :=
  String.ofList ('"' :: text.toList.flatMap escapeChar ++ ['"'])

/-- The text of a value that holds no other value. -/
def scalarText : Json → String
  | .null => "null"
  | .bool true => "true"
  | .bool false => "false"
  | .int value => toString value
  | .float value => floatLayout.render value
  | .string value => quote value
  | .array _ => "[]"
  | .object _ => "\x7b\x7d"

mutual

/-- The text of a value without blanks. -/
def compact : Json → String
  | .array items => "[" ++ compactItems items ++ "]"
  | .object fields => "\x7b" ++ compactFields fields ++ "\x7d"
  | other => scalarText other

/-- Items with commas between them. -/
def compactItems : List Json → String
  | [] => ""
  | [item] => item.compact
  | item :: rest => item.compact ++ "," ++ compactItems rest

/-- Fields with commas between them. -/
def compactFields : List (String × Json) → String
  | [] => ""
  | [(key, value)] => quote key ++ ":" ++ value.compact
  | (key, value) :: rest => quote key ++ ":" ++ value.compact ++ "," ++ compactFields rest

end

/-- A line break and the indentation of the given depth. -/
def lineBreak (depth : Nat) : String :=
  "\n" ++ String.ofList (List.replicate (2 * depth) ' ')

mutual

/-- The indented text of a value whose own line starts at the given depth. -/
def indented (depth : Nat) : Json → String
  | .array (item :: rest) =>
      "[" ++ indentedItems (depth + 1) (item :: rest) ++ lineBreak depth ++ "]"
  | .object (field :: rest) =>
      "\x7b" ++ indentedFields (depth + 1) (field :: rest) ++ lineBreak depth ++ "\x7d"
  | other => scalarText other

/-- Items on lines of their own. -/
def indentedItems (depth : Nat) : List Json → String
  | [] => ""
  | [item] => lineBreak depth ++ item.indented depth
  | item :: rest => lineBreak depth ++ item.indented depth ++ "," ++ indentedItems depth rest

/-- Fields on lines of their own. -/
def indentedFields (depth : Nat) : List (String × Json) → String
  | [] => ""
  | [(key, value)] => lineBreak depth ++ quote key ++ ": " ++ value.indented depth
  | (key, value) :: rest =>
      lineBreak depth ++ quote key ++ ": " ++ value.indented depth ++ "," ++
        indentedFields depth rest

end

/-- The indented text of a whole document. -/
def pretty (value : Json) : String :=
  value.indented 0

end TreeQuery.Json
