import TreeQuery.Request.Operator

/-!
# Clauses in postfix order

An expression lists its clauses in postfix order: the operands first, then the
marker that combines the two most recent results.  Whether the listing is well
formed is decided where it is turned into a predicate.
-/

namespace TreeQuery

/-- An operator on one column. -/
structure Clause where
  column : String
  operator : Operator

/-- An entry of a postfix listing. -/
inductive Term where
  | clause (clause : Clause)
  | and
  | or

/-- Clauses and markers in postfix order. -/
abbrev Expression := List Term

namespace Term

/-- The clause of a term that is no marker. -/
def clause? : Term → Option Clause
  | clause c => some c
  | and => none
  | or => none

end Term

namespace Expression

/-- The clauses of an expression, in order. -/
def clauses (expression : Expression) : List Clause :=
  expression.filterMap Term.clause?

/-- The categories of the clauses, in order. -/
def categories (expression : Expression) : List Category :=
  (clauses expression).map fun clause => clause.operator.category

/-- The category of the first clause. -/
def category (expression : Expression) : Option Category :=
  (categories expression).head?

/-- Whether all clauses are of one category. -/
def isUniform (expression : Expression) : Bool :=
  match categories expression with
  | [] => true
  | first :: rest => rest.all (· == first)

/-- Two expressions and the marker that combines them; an empty expression
leaves the other one as it is. -/
def combine (left right : Expression) (marker : Term) : Expression :=
  if left.isEmpty then right
  else if right.isEmpty then left
  else left ++ right ++ [marker]

end Expression

end TreeQuery
