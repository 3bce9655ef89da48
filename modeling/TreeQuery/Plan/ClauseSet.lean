import TreeQuery.Failure
import TreeQuery.Request.Expression

/-!
# The clauses of one bucket

A bucket may hold several expressions.  Those that filter and those that order
are collected apart, each kind joined by conjunction.
-/

namespace TreeQuery.Plan

/-- The filter and the sort order collected from a bucket. -/
structure ClauseSet where
  filter : Expression := []
  order : Expression := []

namespace ClauseSet

/-- Adds an expression to the collection of its category.  An expression without
clauses adds nothing. -/
def push (clauses : ClauseSet) (expression : Expression) : Except Failure ClauseSet :=
  if Expression.isUniform expression then
    match Expression.category expression with
    | some .filter =>
        .ok { clauses with filter := Expression.combine clauses.filter expression .and }
    | some .order =>
        .ok { clauses with order := Expression.combine clauses.order expression .and }
    | none => .ok clauses
  else .error (.malformed .mixedCategories)

/-- Whether a filter was given. -/
def hasFilter (clauses : ClauseSet) : Bool :=
  !clauses.filter.isEmpty

end ClauseSet

end TreeQuery.Plan
