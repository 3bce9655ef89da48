import TreeQuery.Sql.Expr

/-!
# Queries

A query lists its select items one to a line, then its table, its joins, its
condition, its sort keys and its page, each on a line of its own.
-/

namespace TreeQuery.Sql

/-- An item of a select list. -/
structure SelectItem where
  expression : Expr
  aliasName : Option String := none

/-- The name of an item in the result. -/
def SelectItem.outputName (item : SelectItem) : Option String :=
  match item.aliasName, item.expression with
  | some aliasName, _ => some aliasName
  | none, .column _ name => some name
  | none, _ => none

/-- A reference to a table. -/
structure TableRef where
  schema : Option String := none
  table : String
  aliasName : Option String := none
  deriving DecidableEq

/-- The name that qualifies the columns of the table. -/
def TableRef.reference (table : TableRef) : String :=
  table.aliasName.getD table.table

/-- How rows without a partner are treated. -/
inductive JoinKind where
  | inner | left
  deriving DecidableEq

/-- A joined table. -/
structure Join where
  kind : JoinKind
  table : TableRef
  condition : Expr

/-- A sort direction. -/
inductive Direction where
  | ascending | descending
  deriving DecidableEq

/-- A sort key. -/
structure SortKey where
  expression : Expr
  direction : Option Direction

/-- The part of a result that is asked for. -/
structure Page where
  limit : Option Nat := none
  offset : Option Nat := none
  deriving DecidableEq

/-- A query. -/
structure Query where
  items : List SelectItem := []
  table : Option TableRef := none
  joins : List Join := []
  condition : Option Expr := none
  order : List SortKey := []
  page : Option Page := none

/-- The tokens of an alias, if there is one. -/
def aliasTokens : Option String → List Token
  | none => []
  | some aliasName => [.blank, .keyword .AS, .blank, .identifier aliasName]

/-- The tokens of a select item. -/
def SelectItem.tokens (dialect : Dialect) (item : SelectItem) : List Token :=
  item.expression.tokens dialect ++ aliasTokens item.aliasName

/-- The tokens of a table reference. -/
def TableRef.tokens (table : TableRef) : List Token :=
  .qualified table.schema table.table :: aliasTokens table.aliasName

/-- The tokens of a join. -/
def Join.tokens (dialect : Dialect) (join : Join) : List Token :=
  [.keyword (match join.kind with | .inner => .INNER | .left => .LEFT), .blank,
    .keyword .JOIN, .blank] ++ join.table.tokens ++ [.blank, .keyword .ON, .blank] ++
    join.condition.tokens dialect

/-- The tokens of a sort key. -/
def SortKey.tokens (dialect : Dialect) (key : SortKey) : List Token :=
  key.expression.tokens dialect ++ match key.direction with
    | none => []
    | some .ascending => [.blank, .keyword .ASC]
    | some .descending => [.blank, .keyword .DESC]

namespace Page

/-- The page a limit and an offset make up, if either is given. -/
def of? (limit offset : Option Nat) : Option Page :=
  match limit, offset with
  | none, none => none
  | limit, offset => some ⟨limit, offset⟩

/-- A count as a signed word of 64 bits, which is how counts are written. -/
def countToken (count : Nat) : Token :=
  .literal (.int (Int.bmod count (Nat.pow 2 64)))

/-- The clause for the number of rows. -/
def limitTokens (count : Nat) : List Token :=
  [.keyword .LIMIT, .blank, countToken count]

/-- The clause for the rows that are skipped. -/
def offsetTokens (count : Nat) : List Token :=
  [.keyword .OFFSET, .blank, countToken count]

/-- The page clause of a dialect.  SQLite needs a limit in front of an offset, and
T-SQL always names an offset. -/
def tokens (dialect : Dialect) (page : Page) : List Token :=
  match dialect, page.limit, page.offset with
  | .tsql, limit, offset =>
      offsetTokens (offset.getD 0) ++ [.blank, .keyword .ROWS] ++ match limit with
        | none => []
        | some count =>
            [.blank, .keyword .FETCH, .blank, .keyword .NEXT, .blank, countToken count,
              .blank, .keyword .ROWS, .blank, .keyword .ONLY]
  | _, some limit, some offset => limitTokens limit ++ [.blank] ++ offsetTokens offset
  | _, some limit, none => limitTokens limit
  | .sqlite, none, some offset =>
      [.keyword .LIMIT, .blank, .literal (.int (-1)), .blank] ++ offsetTokens offset
  | _, none, some offset => offsetTokens offset
  | _, none, none => []

end Page

namespace Query

/-- The tokens of the select list, one item to a line. -/
def itemTokens (dialect : Dialect) (items : List SelectItem) : List Token :=
  match items with
  | [] => []
  | first :: rest =>
      [.newline, .indent 1] ++ first.tokens dialect ++
        rest.flatMap fun item =>
          [.mark .comma, .newline, .indent 1] ++ item.tokens dialect

/-- The tokens of the sort order.  Where paging is allowed only after one, a
constant order stands in for a missing one. -/
def orderTokens (dialect : Dialect) (query : Query) : List Token :=
  if query.order.isEmpty then
    if dialect.pagesOnlySorted && query.page.isSome then
      [.newline, .keyword .ORDER_BY, .blank] ++
        parenthesized [.keyword .SELECT, .blank, .keyword .NULL]
    else []
  else
    [.newline, .keyword .ORDER_BY, .blank] ++
      commaSeparated (query.order.map (SortKey.tokens dialect))

/-- The tokens of a query in a dialect. -/
def tokens (dialect : Dialect) (query : Query) : List Token :=
  [.keyword .SELECT] ++ itemTokens dialect query.items ++
    (match query.table with
      | none => []
      | some table => [.newline, .keyword .FROM, .blank] ++ table.tokens) ++
    (query.joins.flatMap fun join => .newline :: join.tokens dialect) ++
    (match query.condition with
      | none => []
      | some condition => [.newline, .keyword .WHERE, .blank] ++ condition.tokens dialect) ++
    query.orderTokens dialect ++
    (match query.page with
      | none => []
      | some page => .newline :: page.tokens dialect)

end Query

end TreeQuery.Sql
