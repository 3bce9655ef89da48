import Mathlib
import TreeQuery.Sql.Select

/-!
# What a query refers to

Every column in an expression is qualified by the name of a table.  A query is in scope when
each of these names is the name of its own table or of one that it joins, and when what a
join is made on was there before it.
-/

namespace TreeQuery.Sql

namespace Expr

mutual

/-- The names by which the columns of an expression are qualified. -/
def tables : Expr → List (Option String)
  | column table _ => [table]
  | literal _ => []
  | binary _ left right => left.tables ++ right.tables
  | not operand => operand.tables
  | call _ arguments _ => tablesOfList arguments
  | member operand values _ => operand.tables ++ tablesOfList values
  | is operand _ _ => operand.tables
  | like operand pattern _ _ => operand.tables ++ pattern.tables
  | star table => table.toList.map some
  | paren operand => operand.tables
  | window function partition => function.tables ++ tablesOfList partition

/-- The names by which the columns of some expressions are qualified. -/
def tablesOfList : List Expr → List (Option String)
  | [] => []
  | first :: rest => first.tables ++ tablesOfList rest

end

/-- Every column of an expression is qualified, by a name among the given ones. -/
def RefersTo (names : String → Prop) (expression : Expr) : Prop :=
  ∀ table ∈ expression.tables, ∃ name, table = some name ∧ names name

variable {names others : String → Prop} {left right operand : Expr}

theorem RefersTo.mono (hnames : ∀ name, names name → others name)
    (hrefers : operand.RefersTo names) : operand.RefersTo others := by
  intro table htable
  obtain ⟨name, rfl, hname⟩ := hrefers table htable
  exact ⟨name, rfl, hnames name hname⟩

theorem refersTo_ofTable {table column : String} :
    (ofTable table column).RefersTo names ↔ names table := by
  constructor
  · intro hrefers
    obtain ⟨name, hname, hnamed⟩ := hrefers (some table) List.mem_cons_self
    exact Option.some.inj hname ▸ hnamed
  · intro htable other hother
    exact ⟨table, List.mem_singleton.mp hother, htable⟩

theorem refersTo_literal (value : Literal) : (literal value).RefersTo names :=
  fun _ hnone => absurd hnone List.not_mem_nil

theorem refersTo_binary {operator : BinaryOperator} :
    (binary operator left right).RefersTo names ↔ left.RefersTo names ∧ right.RefersTo names := by
  rw [RefersTo, tables]
  exact List.forall_mem_append

theorem refersTo_like {negated caseless : Bool} :
    (like left right negated caseless).RefersTo names ↔
      left.RefersTo names ∧ right.RefersTo names := by
  rw [RefersTo, tables]
  exact List.forall_mem_append

theorem tablesOfList_literals (values : List Literal) :
    tablesOfList (values.map literal) = [] := by
  induction values with
  | nil => rfl
  | cons value rest ih => rwa [List.map_cons, tablesOfList, tables, List.nil_append]

theorem refersTo_member {values : List Literal} {negated : Bool} :
    (member operand (values.map literal) negated).RefersTo names ↔ operand.RefersTo names := by
  rw [RefersTo, tables, tablesOfList_literals, List.append_nil]
  rfl

theorem refersTo_countAll : (window countAll []).RefersTo names :=
  fun _ hnone => absurd hnone List.not_mem_nil

end Expr

namespace Query

/-- The tables of a query: its own, and those it joins, in order. -/
def sources (query : Query) : List TableRef :=
  query.table.toList ++ query.joins.map Join.table

/-- The names by which the tables of a query are referred to. -/
def references (query : Query) : List String :=
  query.sources.map TableRef.reference

/-- Every column that a query mentions is qualified by the name of one of its tables, and the
condition of a join by the query's own table, an earlier join, or the join itself. -/
structure InScope (query : Query) : Prop where
  items : ∀ item ∈ query.items, item.expression.RefersTo (· ∈ query.references)
  condition : ∀ condition ∈ query.condition, condition.RefersTo (· ∈ query.references)
  order : ∀ key ∈ query.order, key.expression.RefersTo (· ∈ query.references)
  joins : ∀ before join behind, query.joins = before ++ join :: behind →
    join.condition.RefersTo
      (· ∈ { query with joins := before ++ [join] }.references)

end Query

end TreeQuery.Sql
