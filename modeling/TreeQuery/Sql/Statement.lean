import TreeQuery.Sql.Select

/-!
# Statements

A statement is a query or one of the three changes to a table.
-/

namespace TreeQuery.Sql

/-- New rows of a table. -/
structure Insert where
  schema : Option String := none
  table : String
  columns : List String := []
  rows : List (List Expr) := []

/-- New values for the rows of a table that meet a condition. -/
structure Update where
  schema : Option String := none
  table : String
  assignments : List (String × Expr) := []
  condition : Option Expr := none

/-- The removal of the rows of a table that meet a condition. -/
structure Delete where
  schema : Option String := none
  table : String
  condition : Option Expr := none

/-- A statement. -/
inductive Statement where
  | select (query : Query)
  | insert (change : Insert)
  | update (change : Update)
  | delete (change : Delete)

/-- The kind of a statement. -/
inductive StatementKind where
  | select | insert | update | delete
  deriving DecidableEq

/-- The name of a kind. -/
def StatementKind.name : StatementKind → String
  | select => "select"
  | insert => "insert"
  | update => "update"
  | delete => "delete"

/-- The tokens of a condition behind `WHERE`, if there is one. -/
def conditionTokens (dialect : Dialect) : Option Expr → List Token
  | none => []
  | some condition => [.blank, .keyword .WHERE, .blank] ++ condition.tokens dialect

/-- The tokens of an insertion. -/
def Insert.tokens (dialect : Dialect) (insert : Insert) : List Token :=
  [.keyword .INSERT, .blank, .keyword .INTO, .blank, .qualified insert.schema insert.table] ++
    (if insert.columns.isEmpty then []
      else .blank :: parenthesized
        (commaSeparated (insert.columns.map fun column => [.identifier column]))) ++
    [.blank, .keyword .VALUES] ++
    [Token.mark .comma].intercalate (insert.rows.map fun row =>
      .blank :: parenthesized (commaSeparated (row.map (Expr.tokens dialect))))

/-- The tokens of an update. -/
def Update.tokens (dialect : Dialect) (update : Update) : List Token :=
  [.keyword .UPDATE, .blank, .qualified update.schema update.table, .blank, .keyword .SET,
    .blank] ++
    commaSeparated (update.assignments.map fun (column, value) =>
      [.identifier column, .blank, .mark .eq, .blank] ++ value.tokens dialect) ++
    conditionTokens dialect update.condition

/-- The tokens of a deletion. -/
def Delete.tokens (dialect : Dialect) (delete : Delete) : List Token :=
  [.keyword .DELETE, .blank, .keyword .FROM, .blank, .qualified delete.schema delete.table] ++
    conditionTokens dialect delete.condition

namespace Statement

/-- The kind of a statement. -/
def kind : Statement → StatementKind
  | select _ => .select
  | insert _ => .insert
  | update _ => .update
  | delete _ => .delete

/-- Whether a statement answers with rows. -/
def returnsRows (statement : Statement) : Bool :=
  statement.kind == .select

/-- The tokens of a statement in a dialect. -/
def tokens (dialect : Dialect) : Statement → List Token
  | select query => query.tokens dialect
  | insert change => change.tokens dialect
  | update change => change.tokens dialect
  | delete change => change.tokens dialect

/-- The text of a statement in a dialect. -/
def render (dialect : Dialect) (statement : Statement) : String :=
  Sql.render dialect (statement.tokens dialect)

end Statement

end TreeQuery.Sql
