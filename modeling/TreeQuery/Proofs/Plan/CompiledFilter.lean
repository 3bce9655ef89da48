import TreeQuery.Proofs.Catalog.Confined
import TreeQuery.Proofs.Plan.CollectedClauses

/-!
# Compiled filters

The expressions of a bucket are collected and compiled before the bucket becomes a change.
Whether they filter is settled by their clauses alone, and what they compile to by the answers
about one path.
-/

namespace TreeQuery.Plan

open Catalog (Lookup Memo Schema)

/-- Whether expressions filter, and what their filter compiles to.  Their sort order is compiled
as well: where it is malformed, the expressions are refused. -/
def compiledFilter (schema : Schema) (path : Path) (expressions : List Expression) :
    Lookup Failure (Bool × Option Sql.Expr) := do
  let clauses ← liftExcept (expressions.foldlM ClauseSet.push {})
  let condition ← Predicate.ofExpression schema path clauses.filter
  let _ ← SortKeys.ofExpression schema path clauses.order
  return (clauses.hasFilter, condition)

/-- No expressions are no filter. -/
theorem compiledFilter_nil (schema : Schema) (path : Path) :
    compiledFilter schema path [] = pure (false, none) := rfl

theorem combine_ne_nil {left right : Expression} (marker : Term) (hsome : left ≠ [] ∨ right ≠ []) :
    Expression.combine left right marker ≠ [] := by
  rw [Expression.combine]
  split
  · next hleft => exact hsome.resolve_left (not_not_intro (List.isEmpty_iff.mp hleft))
  · next hleft =>
      split
      · exact fun hnone => hleft (List.isEmpty_iff.mpr hnone)
      · exact List.append_ne_nil_of_right_ne_nil _ (List.cons_ne_nil _ _)

/-- Where a clause filters, the filter that is collected is not empty. -/
theorem pushAll_filter_ne_nil {expressions : List Expression} : ∀ {start final : ClauseSet},
    expressions.foldlM ClauseSet.push start = .ok final →
      (start.filter ≠ [] ∨ ∃ expression ∈ expressions, ∃ clause ∈ Expression.clauses expression,
        clause.operator.category = .filter) → final.filter ≠ [] := by
  induction expressions with
  | nil =>
      intro start final hpush hfilter
      obtain rfl := Except.ok.inj hpush
      exact hfilter.resolve_right (by simp)
  | cons first rest ih =>
      intro start final hpush hfilter
      rw [List.foldlM_cons] at hpush
      obtain ⟨middle, hfirst, hrest⟩ := bind_ok_iff.mp hpush
      obtain ⟨huniform, hcollected⟩ := ClauseSet.push_ok hfirst
      refine ih hrest ?_
      rw [hcollected]
      rcases hfilter with hstart | ⟨expression, hexpression, hfilters⟩
      · left
        split
        · exact combine_ne_nil _ (.inl hstart)
        · exact hstart
      · rcases List.mem_cons.mp hexpression with rfl | hexpression
        · left
          rw [if_pos ((Expression.category_eq_filter_iff huniform).mpr hfilters)]
          obtain ⟨clause, hclause, -⟩ := hfilters
          exact combine_ne_nil _ (.inr fun hnone => by simp [hnone, Expression.clauses] at hclause)
        · exact .inr ⟨expression, hexpression, hfilters⟩

section Filter

variable {schema : Schema} {path : Path} {memo after : Memo} {hasFilter : Bool}
  {condition : Option Sql.Expr}

theorem compiledFilter_succeeds {expressions : List Expression}
    (hrun : Succeeds (compiledFilter schema path expressions) memo (hasFilter, condition) after) :
    ∃ clauses middle, expressions.foldlM ClauseSet.push {} = .ok clauses ∧
      clauses.hasFilter = hasFilter ∧
      Succeeds (Predicate.ofExpression schema path clauses.filter) memo condition middle := by
  obtain ⟨clauses, start, hpush, hrun⟩ := Succeeds.bind_iff.mp hrun
  obtain ⟨predicate, middle, hpredicate, hrun⟩ := Succeeds.bind_iff.mp hrun
  obtain ⟨order, last, -, hrun⟩ := Succeeds.bind_iff.mp hrun
  obtain ⟨hfound, -⟩ := Succeeds.pure_iff.mp hrun
  obtain ⟨hfilter, rfl⟩ := Prod.mk.inj hfound
  obtain ⟨hcollected, rfl⟩ := Succeeds.liftExcept_iff.mp hpush
  exact ⟨clauses, middle, hcollected, hfilter, hpredicate⟩

theorem compiledFilter_hasFilter {expressions : List Expression}
    (hfilters : ∃ expression ∈ expressions, ∃ clause ∈ Expression.clauses expression,
      clause.operator.category = .filter)
    (hrun : Succeeds (compiledFilter schema path expressions) memo (hasFilter, condition) after) :
    hasFilter = true := by
  obtain ⟨clauses, middle, hpush, rfl, -⟩ := compiledFilter_succeeds hrun
  rw [ClauseSet.hasFilter, Bool.not_eq_true', List.isEmpty_eq_false_iff]
  exact pushAll_filter_ne_nil hpush (.inr hfilters)

/-- The filter of one expression is what the expression compiles to. -/
theorem compiledFilter_singleton {expression : Expression}
    (hrun : Succeeds (compiledFilter schema path [expression]) memo (true, condition) after) :
    ∃ middle, Succeeds (Predicate.ofExpression schema path expression) memo condition middle := by
  obtain ⟨clauses, middle, hpush, hfilter, hpredicate⟩ := compiledFilter_succeeds hrun
  rw [List.foldlM_cons] at hpush
  obtain ⟨pushed, hfirst, hlast⟩ := bind_ok_iff.mp hpush
  obtain rfl := Except.ok.inj hlast
  have hcollected := (ClauseSet.push_ok hfirst).2
  split at hcollected
  · rw [hcollected] at hpredicate
    exact ⟨middle, hpredicate⟩
  · rw [ClauseSet.hasFilter, hcollected] at hfilter
    cases hfilter

end Filter

/-! ## Compiling concerns one path -/

section Confined

variable {schema : Schema} {path : Path}

namespace Predicate

theorem ofClause_confined (clause : Clause) :
    schema.Confined path (ofClause schema path clause) := by
  refine (schema.confined_column path clause.column).adapt.bind fun column => ?_
  cases ofOperator clause.column column.expression clause.operator with
  | error failure => exact .throw failure
  | ok predicate => exact .pure predicate

theorem reduce_confined {expression : Expression} : ∀ results : List (Option Sql.Expr),
    schema.Confined path (reduce schema path results expression) := by
  induction expression with
  | nil => exact fun results => .pure results
  | cons term rest ih =>
      intro results
      cases term with
      | clause clause => exact (ofClause_confined clause).bind fun predicate => ih _
      | and => exact (Schema.Confined.liftExcept _).bind ih
      | or => exact (Schema.Confined.liftExcept _).bind ih

theorem ofExpression_confined (expression : Expression) :
    schema.Confined path (ofExpression schema path expression) := by
  rw [ofExpression]
  split
  · exact .pure none
  · refine (reduce_confined []).bind fun results => ?_
    split
    · exact .pure _
    · exact .throw _

end Predicate

namespace SortKeys

theorem ofClause_confined (clause : Clause) :
    schema.Confined path (ofClause schema path clause) := by
  refine (schema.confined_column path clause.column).adapt.bind fun column => ?_
  split
  · exact .pure _
  · exact .throw _

theorem ofExpression_confined (expression : Expression) :
    schema.Confined path (ofExpression schema path expression) := by
  induction expression with
  | nil => exact .pure []
  | cons term rest ih =>
      cases term with
      | clause clause =>
          rw [ofExpression_clause]
          exact (ofClause_confined clause).bind fun _ => ih.bind fun _ => .pure _
      | and => exact ih
      | or => exact .throw _

end SortKeys

theorem compiledFilter_confined (expressions : List Expression) :
    schema.Confined path (compiledFilter schema path expressions) :=
  (Schema.Confined.liftExcept _).bind fun clauses =>
    (Predicate.ofExpression_confined clauses.filter).bind fun _ =>
      (SortKeys.ofExpression_confined clauses.order).bind fun _ => .pure _

end Confined

end TreeQuery.Plan
