import TreeQuery.Plan.Gathered
import TreeQuery.Proofs.Catalog.Answers

/-!
# What planning asks the schema

Clauses ask for columns of the path they stand on and for nothing else.  A join asks
for the link, for the two columns that it equates, and for the table it joins.
-/

namespace TreeQuery.Plan

open Catalog (Link Memo ResolvedColumn Schema)

variable {schema : Schema} {path : Path} {memo after : Memo}

namespace Predicate

theorem ofClause_run {clause : Clause} {predicate : Option Sql.Expr}
    (hrun : Succeeds (ofClause schema path clause) memo predicate after) :
    ∃ column, Succeeds (schema.column ⟨clause.column, path⟩) memo column after ∧
      ofOperator clause.column column.expression clause.operator = .ok predicate := by
  rw [ofClause, Succeeds.bind_iff] at hrun
  obtain ⟨column, middle, hcolumn, hrest⟩ := hrun
  split at hrest
  · next planned hplanned =>
      obtain ⟨rfl, rfl⟩ := Succeeds.pure_iff.mp hrest
      exact ⟨column, Succeeds.adapt_iff.mp hcolumn, hplanned⟩
  · exact absurd hrest Succeeds.not_throw

theorem ofClause_succeeds {clause : Clause} {predicate : Option Sql.Expr}
    (hrun : Succeeds (ofClause schema path clause) memo predicate after) :
    Memo.Grows schema (· = path) memo after ∧ ∃ column,
      schema.columnAnswer? memo ⟨clause.column, path⟩ = some column ∧
        ofOperator clause.column column.expression clause.operator = .ok predicate := by
  obtain ⟨column, hcolumn, hplanned⟩ := ofClause_run hrun
  obtain ⟨hanswer, hgrows, -⟩ := Schema.columnAt_succeeds hcolumn
  exact ⟨hgrows, column, hanswer, hplanned⟩

/-- Going through a listing: a clause adds its predicate to the results, and a marker combines
the two most recent. -/
inductive ReduceRun (schema : Schema) (path : Path) :
    Memo → List (Option Sql.Expr) → Expression → List (Option Sql.Expr) → Memo → Prop
  | nil {memo : Memo} {results : List (Option Sql.Expr)} :
      ReduceRun schema path memo results [] results memo
  | clause {memo middle after : Memo} {results final : List (Option Sql.Expr)} {clause : Clause}
      {predicate : Option Sql.Expr} {rest : Expression}
      (hclause : Succeeds (ofClause schema path clause) memo predicate middle)
      (hrest : ReduceRun schema path middle (predicate :: results) rest final after) :
      ReduceRun schema path memo results (.clause clause :: rest) final after
  | and {memo after : Memo} {results next final : List (Option Sql.Expr)} {rest : Expression}
      (hcombine : combine path both? results = .ok next)
      (hrest : ReduceRun schema path memo next rest final after) :
      ReduceRun schema path memo results (.and :: rest) final after
  | or {memo after : Memo} {results next final : List (Option Sql.Expr)} {rest : Expression}
      (hcombine : combine path either? results = .ok next)
      (hrest : ReduceRun schema path memo next rest final after) :
      ReduceRun schema path memo results (.or :: rest) final after

theorem reduce_run {expression : Expression} {results final : List (Option Sql.Expr)}
    (hrun : Succeeds (reduce schema path results expression) memo final after) :
    ReduceRun schema path memo results expression final after := by
  induction expression generalizing memo results with
  | nil =>
      rw [reduce] at hrun
      obtain ⟨rfl, rfl⟩ := Succeeds.pure_iff.mp hrun
      exact .nil
  | cons term rest ih =>
      cases term with
      | clause clause =>
          rw [reduce] at hrun
          obtain ⟨predicate, middle, hclause, hrest⟩ := Succeeds.bind_iff.mp hrun
          exact .clause hclause (ih hrest)
      | and =>
          rw [reduce] at hrun
          obtain ⟨combined, middle, hstep, hrest⟩ := Succeeds.bind_iff.mp hrun
          obtain ⟨hcombine, rfl⟩ := Succeeds.liftExcept_iff.mp hstep
          exact .and hcombine (ih hrest)
      | or =>
          rw [reduce] at hrun
          obtain ⟨combined, middle, hstep, hrest⟩ := Succeeds.bind_iff.mp hrun
          obtain ⟨hcombine, rfl⟩ := Succeeds.liftExcept_iff.mp hstep
          exact .or hcombine (ih hrest)

theorem ReduceRun.grows {expression : Expression} {results final : List (Option Sql.Expr)}
    (hrun : ReduceRun schema path memo results expression final after) :
    Memo.Grows schema (· = path) memo after := by
  induction hrun with
  | nil => exact .refl
  | clause hclause _ ih => exact (ofClause_succeeds hclause).1.trans ih
  | and _ _ ih | or _ _ ih => exact ih

/-- A predicate succeeds as nothing, or as the only result of its listing. -/
theorem ofExpression_succeeds {expression : Expression} {predicate : Option Sql.Expr}
    (hrun : Succeeds (ofExpression schema path expression) memo predicate after) :
    predicate = none ∧ memo = after ∨
      Succeeds (reduce schema path [] expression) memo [predicate] after := by
  rw [ofExpression] at hrun
  split at hrun
  · obtain ⟨hnone, hsame⟩ := Succeeds.pure_iff.mp hrun
    exact .inl ⟨hnone.symm, hsame⟩
  · obtain ⟨final, middle, hreduce, hrest⟩ := Succeeds.bind_iff.mp hrun
    split at hrest
    · obtain ⟨rfl, rfl⟩ := Succeeds.pure_iff.mp hrest
      exact .inr hreduce
    · exact absurd hrest Succeeds.not_throw

theorem ofExpression_grows {expression : Expression} {predicate : Option Sql.Expr}
    (hrun : Succeeds (ofExpression schema path expression) memo predicate after) :
    Memo.Grows schema (· = path) memo after := by
  rcases ofExpression_succeeds hrun with ⟨-, rfl⟩ | hreduce
  · exact .refl
  · exact (reduce_run hreduce).grows

end Predicate

namespace SortKeys

theorem ofClause_run {clause : Clause} {key : Sql.SortKey}
    (hrun : Succeeds (ofClause schema path clause) memo key after) :
    ∃ column direction, Succeeds (schema.column ⟨clause.column, path⟩) memo column after ∧
      clause.operator = .sort direction ∧ key = ⟨column.expression, some direction⟩ := by
  rw [ofClause, Succeeds.bind_iff] at hrun
  obtain ⟨column, middle, hcolumn, hrest⟩ := hrun
  split at hrest
  · next direction hsort =>
      obtain ⟨rfl, rfl⟩ := Succeeds.pure_iff.mp hrest
      exact ⟨column, direction, Succeeds.adapt_iff.mp hcolumn, hsort, rfl⟩
  · exact absurd hrest Succeeds.not_throw

theorem ofClause_grows {clause : Clause} {key : Sql.SortKey}
    (hrun : Succeeds (ofClause schema path clause) memo key after) :
    Memo.Grows schema (· = path) memo after := by
  obtain ⟨column, direction, hcolumn, -, -⟩ := ofClause_run hrun
  exact (Schema.columnAt_succeeds hcolumn).2.1

/-- Going through a listing of sort keys: every clause gives one, a conjunction marker none. -/
inductive SortRun (schema : Schema) (path : Path) :
    Memo → Expression → List Sql.SortKey → Memo → Prop
  | nil {memo : Memo} : SortRun schema path memo [] [] memo
  | clause {memo middle after : Memo} {clause : Clause} {key : Sql.SortKey} {rest : Expression}
      {keys : List Sql.SortKey} (hclause : Succeeds (ofClause schema path clause) memo key middle)
      (hrest : SortRun schema path middle rest keys after) :
      SortRun schema path memo (.clause clause :: rest) (key :: keys) after
  | and {memo after : Memo} {rest : Expression} {keys : List Sql.SortKey}
      (hrest : SortRun schema path memo rest keys after) :
      SortRun schema path memo (.and :: rest) keys after

theorem ofExpression_run {expression : Expression} {keys : List Sql.SortKey}
    (hrun : Succeeds (ofExpression schema path expression) memo keys after) :
    SortRun schema path memo expression keys after := by
  induction expression generalizing memo keys with
  | nil =>
      rw [ofExpression_nil] at hrun
      obtain ⟨rfl, rfl⟩ := Succeeds.pure_iff.mp hrun
      exact .nil
  | cons term rest ih =>
      cases term with
      | clause clause =>
          rw [ofExpression_clause] at hrun
          obtain ⟨key, middle, hclause, hrest⟩ := Succeeds.bind_iff.mp hrun
          obtain ⟨others, last, hothers, hpure⟩ := Succeeds.bind_iff.mp hrest
          obtain ⟨rfl, rfl⟩ := Succeeds.pure_iff.mp hpure
          exact .clause hclause (ih hothers)
      | and =>
          rw [ofExpression_and] at hrun
          exact .and (ih hrun)
      | or =>
          rw [ofExpression_or] at hrun
          exact absurd hrun Succeeds.not_throw

theorem ofExpression_grows {expression : Expression} {keys : List Sql.SortKey}
    (hrun : Succeeds (ofExpression schema path expression) memo keys after) :
    Memo.Grows schema (· = path) memo after := by
  replace hrun := ofExpression_run hrun
  induction hrun with
  | nil => exact .refl
  | clause hclause _ ih => exact (ofClause_grows hclause).trans ih
  | and _ ih => exact ih

end SortKeys

end TreeQuery.Plan
