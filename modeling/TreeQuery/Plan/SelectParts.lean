import TreeQuery.Plan.Gathered

/-!
# The parts of a query

The parts of a query before it is put together.  Extensions of reads receive
them and may change them.
-/

namespace TreeQuery.Plan

/-- The parts of a query. -/
structure SelectParts where
  table : Sql.TableRef
  items : List Sql.SelectItem
  joins : List Sql.Join
  condition : Option Sql.Expr
  order : List Sql.SortKey
  limit : Option Nat
  offset : Option Nat

/-- The query of its parts. -/
def SelectParts.query (parts : SelectParts) : Sql.Query where
  items := parts.items
  table := some parts.table
  joins := parts.joins
  condition := parts.condition
  order := parts.order
  page := Sql.Page.of? parts.limit parts.offset

/-- The select item that counts all rows of the result, under the given name. -/
def totalItem (name : String) : Sql.SelectItem where
  expression := .window .countAll []
  aliasName := some name

end TreeQuery.Plan
