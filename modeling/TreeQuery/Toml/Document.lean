import TreeQuery.Toml.Scalar

/-!
# TOML documents

A document is read line by line into headers and assignments, which are then put
together into one table.  A table may be opened only once, and a key may be given
only once.
-/

namespace TreeQuery.Toml

/-- A line of a document that says something. -/
inductive Entry where
  | table (path : List String)
  | item (path : List String)
  | assign (path : List String) (value : Json)

/-- How a table came about: by a header of its own, on the way to another table,
or by a dotted key. -/
inductive Origin where
  | header | implied | dotted
  deriving DecidableEq

/-- A node of a document. -/
inductive Node where
  | value (value : Json)
  | table (origin : Origin) (fields : List (String × Node))
  | items (tables : List (List (String × Node)))

/-- The fields of a table. -/
abbrev Fields := List (String × Node)

mutual

/-- The value of a node. -/
def Node.toJson : Node → Json
  | .value value => value
  | .table _ fields => .object (fieldsToJson fields)
  | .items tables => .array (tablesToJson tables)

/-- The values of fields. -/
def fieldsToJson : List (String × Node) → List (String × Json)
  | [] => []
  | (key, node) :: rest => (key, node.toJson) :: fieldsToJson rest

/-- The values of tables. -/
def tablesToJson : List (List (String × Node)) → List Json
  | [] => []
  | fields :: rest => .object (fieldsToJson fields) :: tablesToJson rest

end

/-! ## Putting tables together -/

/-- Puts a node under a key, in place of an earlier one. -/
def put (key : String) (node : Node) : Fields → Fields
  | [] => [(key, node)]
  | (other, stored) :: rest =>
      if key = other then (key, node) :: rest else (other, stored) :: put key node rest

/-- Changes the last of several tables. -/
def changeLast? (change : Fields → Option Fields) : List Fields → Option (List Fields)
  | [] => none
  | [last] => (change last).map ([·])
  | first :: rest => (changeLast? change rest).map (first :: ·)

/-- Changes the table that a header's path leads to, through tables of any origin
and the last table of a list. -/
def changeAt? (change : Fields → Option Fields) : List String → Fields → Option Fields
  | [], fields => change fields
  | key :: rest, fields =>
      match List.lookup key fields with
      | none => (changeAt? change rest []).map fun inner => put key (.table .implied inner) fields
      | some (.table origin inner) =>
          (changeAt? change rest inner).map fun inner => put key (.table origin inner) fields
      | some (.items tables) =>
          (changeLast? (changeAt? change rest) tables).map fun tables =>
            put key (.items tables) fields
      | some (.value _) => none

/-- Opens a table by its header, once. -/
def openTable? (key : String) (fields : Fields) : Option Fields :=
  match List.lookup key fields with
  | none => some (put key (.table .header []) fields)
  | some (.table .implied inner) => some (put key (.table .header inner) fields)
  | some _ => none

/-- Adds a table to a list of tables. -/
def openItem? (key : String) (fields : Fields) : Option Fields :=
  match List.lookup key fields with
  | none => some (put key (.items [[]]) fields)
  | some (.items tables) => some (put key (.items (tables ++ [[]])) fields)
  | some _ => none

/-- Assigns a value to a dotted key, which must be new.  A dotted key does not reach
into a table that has a header, and the table it ends in must be the one it started
from or come from a dotted key itself; `isOpen` says whether that holds here. -/
def assignAt? (value : Json) (isOpen : Bool) : List String → Fields → Option Fields
  | [], _ => none
  | [key], fields =>
      if !isOpen || (List.lookup key fields).isSome then none
      else some (put key (.value value) fields)
  | key :: rest, fields =>
      match List.lookup key fields with
      | none =>
          (assignAt? value true rest []).map fun inner => put key (.table .dotted inner) fields
      | some (.table .header _) => none
      | some (.table origin inner) =>
          (assignAt? value (decide (origin = .dotted)) rest inner).map fun inner =>
            put key (.table origin inner) fields
      | some (.items tables) =>
          (changeLast? (assignAt? value false rest) tables).map fun tables =>
            put key (.items tables) fields
      | some (.value _) => none

/-- Assigns a value to a key of the current table. -/
def assign? (path : List String) (value : Json) (fields : Fields) : Option Fields :=
  assignAt? value true path fields

/-- Splits the last part off a path. -/
def splitLast? (path : List String) : Option (List String × String) := do
  return (path.dropLast, ← path.getLast?)

/-- Puts the entries together.  Assignments go into the table opened last. -/
def build? : List String → Fields → List Entry → Option Fields
  | _, fields, [] => some fields
  | _, fields, .table path :: rest => do
      let (parents, key) ← splitLast? path
      build? path (← changeAt? (openTable? key) parents fields) rest
  | _, fields, .item path :: rest => do
      let (parents, key) ← splitLast? path
      build? path (← changeAt? (openItem? key) parents fields) rest
  | current, fields, .assign path value :: rest => do
      build? current (← changeAt? (assign? path value) current fields) rest

/-! ## Values -/

/-- How deep arrays and inline tables may be nested. -/
def depthLimit : Nat := 80

/-- An array or an inline table may not be opened at depth zero. -/
def below? : Nat → Option Nat
  | 0 => none
  | depth + 1 => some depth

mutual

/-- A value at the front of a text, within which containers may be nested so deep. -/
def value? : Nat → Nat → List Char → Option (Json × List Char)
  | 0, _, _ => none
  | fuel + 1, depth, characters =>
      match characters with
      | '[' :: rest => do
          let (items, after) ← items? fuel (← below? depth) rest
          return (Json.array items, after)
      | '\x7b' :: rest => do
          let (fields, after) ← members? fuel (← below? depth) [] rest
          return (Json.object (fieldsToJson fields), after)
      | _ =>
          match spanWord characters with
          | ([], _) => (string? characters).map fun (text, after) => (Json.string text, after)
          | (word, after) => (word? word).map (·, after)

/-- The items of an array, which may span lines, up to its closing bracket. -/
def items? : Nat → Nat → List Char → Option (List Json × List Char)
  | 0, _, _ => none
  | fuel + 1, depth, characters =>
      match skipLines characters.length characters with
      | ']' :: after => some ([], after)
      | start => do
          let (item, rest) ← value? fuel depth start
          match skipLines rest.length rest with
          | ']' :: after => return ([item], after)
          | ',' :: following =>
              let (items, after) ← items? fuel depth following
              return (item :: items, after)
          | _ => none

/-- The fields of an inline table, which may span lines, up to its closing brace. -/
def members? : Nat → Nat → Fields → List Char → Option (Fields × List Char)
  | 0, _, _, _ => none
  | fuel + 1, depth, fields, characters =>
      match skipLines characters.length characters with
      | '\x7d' :: after => some (fields, after)
      | start => do
          let (path, rest) ← key? start
          let (value, rest) ← value? fuel depth (skipBlanks (← expect? '=' rest))
          let fields ← assign? path value fields
          match skipLines rest.length rest with
          | '\x7d' :: after => return (fields, after)
          | ',' :: following => members? fuel depth fields following
          | _ => none

end

/-! ## Lines -/

/-- The entry at the front of a text, and the lines after it. -/
def entry? (characters : List Char) : Option (Entry × List Char) := do
  match characters with
  | '[' :: '[' :: rest =>
      let (path, rest) ← key? rest
      return (.item path, ← endOfLine? (← expect? ']' (← expect? ']' rest)))
  | '[' :: rest =>
      let (path, rest) ← key? rest
      return (.table path, ← endOfLine? (← expect? ']' rest))
  | _ =>
      let (path, rest) ← key? characters
      let start := skipBlanks (← expect? '=' rest)
      let (value, rest) ← value? (2 * start.length + 2) depthLimit start
      return (.assign path value, ← endOfLine? rest)

/-- The entries of a document. -/
def entries? : Nat → List Char → Option (List Entry)
  | 0, _ => none
  | fuel + 1, characters =>
      match skipLines (characters.length + 1) characters with
      | [] => some []
      | start => do
          let (entry, rest) ← entry? start
          return entry :: (← entries? fuel rest)

/-- A text without the mark of its encoding, which may stand at its front. -/
def withoutMark (characters : List Char) : List Char :=
  match characters with
  | '\uFEFF' :: rest => rest
  | _ => characters

/-- The document of a text. -/
def parse? (text : String) : Option Json := do
  let characters := withoutMark text.toList
  let entries ← entries? (characters.length + 1) characters
  let fields ← build? [] [] entries
  return (Json.object (fieldsToJson fields)).normalize

end TreeQuery.Toml
