import TreeQuery.Json.Document
import TreeQuery.Sql.Statement

/-!
# Statements as documents

Expressions, queries and changes can be written down as JSON documents.  An
expression is an object of one field named for its kind.  Fields that are missing
or null have their defaults.
-/

namespace TreeQuery.Sql

/-- The binary operator of a name. -/
def BinaryOperator.ofName? : String → Option BinaryOperator
  | "eq" => some eq
  | "ne" => some ne
  | "lt" => some lt
  | "gt" => some gt
  | "lte" => some le
  | "gte" => some ge
  | "and" => some and
  | "or" => some or
  | _ => none

/-- What a value may be tested to be, by name. -/
def Truth.ofName? : String → Option Truth
  | "null" => some null
  | "true" => some true
  | "false" => some false
  | _ => none

namespace Expr

/-- An expression whose document holds no other expression. -/
def decodeFlat? (tag : String) (payload : Json) : Option Expr :=
  match tag, payload with
  | "col", .string name => some (column none name)
  | "col", .array [.string table, .string name] => some (column (some table) name)
  | "int", .int value => some (literal (.int value))
  | "float", value => value.double?.map fun value => literal (.float value)
  | "str", .string text => some (literal (.string text))
  | "bool", .bool value => some (literal (.bool value))
  | "null", _ => some (literal .null)
  | "json", value => some (ofJson value)
  | "count_star", _ => some countAll
  | "star", .null => some (star none)
  | "star", .string table => some (star (some table))
  | _, _ => none

mutual

/-- The expression of a document. -/
def decode? : Json → Option Expr
  | .object [(tag, payload)] =>
      if tag = "not" then (decode? payload).map not
      else if tag = "paren" then (decode? payload).map paren
      else decodeCompound? tag payload
  | _ => none

/-- The expression of a kind that holds several others. -/
def decodeCompound? (tag : String) : Json → Option Expr
  | .array [operator, left, right] =>
      if tag = "bin" then do
        let operator ← BinaryOperator.ofName? (← operator.text?)
        return binary operator (← decode? left) (← decode? right)
      else decodeFlat? tag (.array [operator, left, right])
  | .object fields =>
      let negated := Json.isGivenTrue "negated" fields
      if tag = "func" then do
        return call (← Json.givenText? "name" fields) (← decodeListField? "args" fields)
          (Json.isGivenTrue "distinct" fields)
      else if tag = "in" then do
        return member (← decodeField? "expr" fields) (← decodeListField? "values" fields)
          negated
      else if tag = "is" then do
        let value ← Truth.ofName? (← Json.givenText? "value" fields)
        return is (← decodeField? "expr" fields) value negated
      else if tag = "like" then do
        return like (← decodeField? "expr" fields) (← decodeField? "pattern" fields) negated
          (Json.isGivenTrue "ci" fields)
      else if tag = "over" then do
        return window (← decodeField? "expr" fields) (← decodeListField? "partition_by" fields)
      else decodeFlat? tag (.object fields)
  | payload => decodeFlat? tag payload

/-- The expression of a field. -/
def decodeField? (name : String) : List (String × Json) → Option Expr
  | [] => none
  | (key, value) :: rest => if key = name then decode? value else decodeField? name rest

/-- The expressions of a field, none when it is not given. -/
def decodeListField? (name : String) : List (String × Json) → Option (List Expr)
  | [] => some []
  | (key, value) :: rest =>
      if key = name then decodeList? value else decodeListField? name rest

/-- The expressions of a list of documents. -/
def decodeList? : Json → Option (List Expr)
  | .array items => decodeItems? items
  | .null => some []
  | _ => none

/-- The expressions of documents. -/
def decodeItems? : List Json → Option (List Expr)
  | [] => some []
  | item :: rest => do return (← decode? item) :: (← decodeItems? rest)

end

/-- The expression of a field of a document. -/
def ofField? (name : String) (fields : Record) : Option Expr :=
  (Json.given? name fields).bind decode?

/-- The conjunction of the conditions of a document, if it has any. -/
def conditionOf? (fields : Record) : Option (Option Expr) := do
  return conjunction? (← (Json.givenItems "filters" fields).mapM decode?)

end Expr

/-- The table reference of a document. -/
def TableRef.decode? (document : Json) : Option TableRef := do
  let fields ← document.fields?
  return {
    schema := Json.givenText? "schema" fields
    table := ← Json.givenText? "table" fields
    aliasName := Json.givenText? "alias" fields }

/-- The select item of a document. -/
def SelectItem.decode? (document : Json) : Option SelectItem := do
  let fields ← document.fields?
  return {
    expression := ← Expr.ofField? "expr" fields
    aliasName := Json.givenText? "alias" fields }

/-- The kind of a join by its name. -/
def JoinKind.ofName? : String → Option JoinKind
  | "inner" => some inner
  | "left" => some left
  | _ => none

/-- The join of a document. -/
def Join.decode? (document : Json) : Option Join := do
  let fields ← document.fields?
  return {
    kind := ← JoinKind.ofName? (← Json.givenText? "type" fields)
    table := ← TableRef.decode? (← Json.given? "table" fields)
    condition := ← Expr.ofField? "on" fields }

/-- The direction of a sort key, if one is named. -/
def Direction.ofName? : Option String → Option (Option Direction)
  | none => some none
  | some "asc" => some (some ascending)
  | some "desc" => some (some descending)
  | some _ => none

/-- The sort key of a document. -/
def SortKey.decode? (document : Json) : Option SortKey := do
  let fields ← document.fields?
  return {
    expression := ← Expr.ofField? "expr" fields
    direction := ← Direction.ofName? (Json.givenText? "dir" fields) }

/-- The count of a field, if it is given. -/
def countOf? (name : String) (fields : Record) : Option (Option Nat) :=
  match Json.given? name fields with
  | none => some none
  | some count => count.word?.map some

/-- The page of a document, whatever parts of it are given. -/
def Page.ofFields? (fields : Record) : Option Page := do
  return ⟨← countOf? "limit" fields, ← countOf? "offset" fields⟩

/-- The query of a document. -/
def Query.decode? (document : Json) : Option Query := do
  let fields ← document.fields?
  let page ← Page.ofFields? fields
  let table ← match Json.given? "from" fields with
    | none => some none
    | some table => (TableRef.decode? table).map some
  return {
    items := ← (Json.givenItems "select" fields).mapM SelectItem.decode?
    table
    joins := ← (Json.givenItems "joins" fields).mapM Join.decode?
    condition := ← Expr.conditionOf? fields
    order := ← (Json.givenItems "order" fields).mapM SortKey.decode?
    page := Page.of? page.limit page.offset }

/-- The row of expressions of a document. -/
def decodeRow? : Json → Option (List Expr)
  | .array items => items.mapM Expr.decode?
  | _ => none

/-- The insertion of a document. -/
def Insert.decode? (document : Json) : Option Insert := do
  let fields ← document.fields?
  return {
    schema := Json.givenText? "schema" fields
    table := ← Json.givenText? "table" fields
    columns := ← (Json.givenItems "columns" fields).mapM Json.text?
    rows := ← (Json.givenItems "values" fields).mapM decodeRow? }

/-- The assignment of a document. -/
def decodeAssignment? : Json → Option (String × Expr)
  | .array [.string column, value] => (Expr.decode? value).map (column, ·)
  | _ => none

/-- The update of a document. -/
def Update.decode? (document : Json) : Option Update := do
  let fields ← document.fields?
  return {
    schema := Json.givenText? "schema" fields
    table := ← Json.givenText? "table" fields
    assignments := ← (Json.givenItems "set" fields).mapM decodeAssignment?
    condition := ← Expr.conditionOf? fields }

/-- The deletion of a document. -/
def Delete.decode? (document : Json) : Option Delete := do
  let fields ← document.fields?
  return {
    schema := Json.givenText? "schema" fields
    table := ← Json.givenText? "table" fields
    condition := ← Expr.conditionOf? fields }

end TreeQuery.Sql
