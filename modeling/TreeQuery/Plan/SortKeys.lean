import TreeQuery.Catalog.Resolution
import TreeQuery.Failure
import TreeQuery.Request.Expression

/-!
# Sort keys from postfix clauses

Sort keys come in the order of their clauses.  A conjunction marker between
them changes nothing, and a disjunction of sort keys has no meaning.
-/

namespace TreeQuery.Plan

open Catalog (Lookup Schema)

namespace SortKeys

/-- The sort key of a clause on a column of a path. -/
def ofClause (schema : Schema) (path : Path) (clause : Clause) : Lookup Failure Sql.SortKey := do
  let column ← (schema.column ⟨clause.column, path⟩).adapt Failure.schema
  match clause.operator with
  | .sort direction => return ⟨column.expression, some direction⟩
  | _ => throw (.malformed (.filterInSort clause.column))

/-- The sort keys of an expression on a path, behind those that are settled and those that
wait for the next marker or the end. -/
def collect (schema : Schema) (path : Path) (settled waiting : List Sql.SortKey) :
    Expression → Lookup Failure (List Sql.SortKey)
  | [] => return settled ++ waiting
  | .clause clause :: rest => do
      let key ← ofClause schema path clause
      collect schema path settled (waiting ++ [key]) rest
  | .and :: rest => collect schema path (settled ++ waiting) [] rest
  | .or :: _ => throw (.malformed (.alternativeSort path.outputName))

/-- The sort keys of an expression on a path. -/
def ofExpression (schema : Schema) (path : Path) (expression : Expression) :
    Lookup Failure (List Sql.SortKey) :=
  collect schema path [] [] expression

variable {schema : Schema} {path : Path}

/-- What is settled and what waits stay in front, wherever markers stand. -/
theorem collect_eq (expression : Expression) : ∀ settled waiting : List Sql.SortKey,
    collect schema path settled waiting expression = do
      let keys ← ofExpression schema path expression
      return settled ++ waiting ++ keys := by
  induction expression with
  | nil =>
      intro settled waiting
      simp [collect, ofExpression]
  | cons term rest ih =>
      intro settled waiting
      cases term with
      | clause clause =>
          rw [ofExpression, collect, collect, bind_assoc]
          refine bind_congr fun key => ?_
          rw [ih settled (waiting ++ [key]), ih [] ([] ++ [key])]
          simp
      | and =>
          rw [ofExpression, collect, collect, ih (settled ++ waiting) [], ih ([] ++ []) []]
          simp
      | or => rfl

theorem ofExpression_nil : ofExpression schema path [] = return [] := rfl

/-- The key of the first clause comes first. -/
theorem ofExpression_clause (clause : Clause) (rest : Expression) :
    ofExpression schema path (.clause clause :: rest) = do
      let key ← ofClause schema path clause
      return key :: (← ofExpression schema path rest) := by
  rw [ofExpression, collect]
  refine bind_congr fun key => ?_
  rw [collect_eq rest [] ([] ++ [key])]
  simp

/-- A conjunction marker adds nothing. -/
theorem ofExpression_and (rest : Expression) :
    ofExpression schema path (.and :: rest) = ofExpression schema path rest := rfl

theorem ofExpression_or (rest : Expression) :
    ofExpression schema path (.or :: rest) =
      throw (.malformed (.alternativeSort path.outputName)) := rfl

end SortKeys

end TreeQuery.Plan
