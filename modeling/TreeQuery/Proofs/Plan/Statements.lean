import TreeQuery.Proofs.Plan.Building

/-!
# What a statement is made of

What was gathered for a bucket is planned as one of four kinds of statement.  A successful run is
taken apart here, so that what holds of a statement is shown by four cases.
-/

namespace TreeQuery.Plan

open Catalog (Memo)
open Sql (Statement)

/-! ## The four kinds of statement -/

/-- A statement changes a table, and it touches the rows that are there under a condition
only. -/
def GuardedChange : Statement → Prop
  | .select _ => False
  | .insert _ => True
  | .update change => ∃ condition, change.condition = some condition
  | .delete change => ∃ condition, change.condition = some condition

namespace Planner

/-- How what was gathered at a path is planned as a statement. -/
inductive Plans (planner : Planner) (path : Path) (gathered : Gathered) (memo after : Memo) :
    Statement → Prop
  | select {parts : SelectParts} (hasks : gathered.columns ≠ [] ∨ gathered.total = true)
      (hrows : gathered.rows = [])
      (hparts : Succeeds (planner.parts path gathered) memo parts after) :
      Plans planner path gathered memo after (.select parts.query)
  | delete {condition : Sql.Expr} {change : Sql.Delete} (hrows : gathered.rows = [])
      (hfilter : gathered.hasFilter = true) (hcondition : gathered.condition? = some condition)
      (hdelete : Succeeds (planner.deletion path condition) memo change after) :
      Plans planner path gathered memo after (.delete change)
  | insert {change : Sql.Insert} (hrows : gathered.rows ≠ []) (hfilter : gathered.hasFilter = false)
      (hinsert : Succeeds (planner.insertion path gathered.rows) memo change after) :
      Plans planner path gathered memo after (.insert change)
  | update {row : Record} {condition : Sql.Expr} {change : Sql.Update}
      (hrows : gathered.rows = [row]) (hfilter : gathered.hasFilter = true)
      (hcondition : gathered.condition? = some condition)
      (hupdate : Succeeds (planner.update path row condition) memo change after) :
      Plans planner path gathered memo after (.update change)

variable {planner : Planner} {bucket : Bucket} {path : Path} {gathered : Gathered}
  {statement : Statement} {memo after : Memo}

theorem change_plans (hrun : Succeeds (planner.change bucket path gathered) memo statement after) :
    planner.Plans path gathered memo after statement := by
  unfold change at hrun
  split at hrun
  · exact absurd hrun Succeeds.not_throw
  · exact absurd hrun Succeeds.not_throw
  · next condition hrows hfilter hcondition =>
      obtain ⟨change, hdelete, rfl⟩ := Succeeds.map_iff.mp hrun
      exact .delete hrows hfilter hcondition hdelete
  · next hfilter hrows =>
      obtain ⟨change, hinsert, rfl⟩ := Succeeds.map_iff.mp hrun
      exact .insert hrows hfilter hinsert
  · next row condition hrows hfilter hcondition =>
      obtain ⟨change, hupdate, rfl⟩ := Succeeds.map_iff.mp hrun
      exact .update hrows hfilter hcondition hupdate
  · exact absurd hrun Succeeds.not_throw

/-- A bucket is planned by what gathering it finds. -/
theorem build_plans (hrun : Succeeds (planner.build bucket) memo statement after) :
    ∃ gathered middle, Succeeds (gather planner.schema bucket.rootPath bucket) memo gathered
      middle ∧ planner.Plans bucket.rootPath gathered middle after statement := by
  rw [build] at hrun
  obtain ⟨gathered, middle, hgather, hrest⟩ := Succeeds.bind_iff.mp hrun
  refine ⟨gathered, middle, hgather, ?_⟩
  split at hrest
  · next hasks =>
      obtain ⟨query, hquery, rfl⟩ := Succeeds.map_iff.mp hrest
      rw [selection] at hquery
      split at hquery
      · obtain ⟨_, _, hthrow, -⟩ := Succeeds.bind_iff.mp hquery
        exact absurd hthrow Succeeds.not_throw
      · next hrows =>
          obtain ⟨parts, last, hparts, hpure⟩ := Succeeds.bind_iff.mp hquery
          obtain ⟨rfl, rfl⟩ := Succeeds.pure_iff.mp hpure
          exact .select (by simpa using hasks) (by simpa using hrows) hparts
  · exact change_plans hrest

theorem deletion_succeeds {condition : Sql.Expr} {change : Sql.Delete}
    (hrun : Succeeds (planner.deletion path condition) memo change after) :
    ∃ table, Succeeds (planner.tableAt path) memo table after ∧
      change = ⟨table.schema, table.table, some condition⟩ := by
  rw [deletion] at hrun
  obtain ⟨table, middle, htable, hrest⟩ := Succeeds.bind_iff.mp hrun
  obtain ⟨rfl, rfl⟩ := Succeeds.pure_iff.mp hrest
  exact ⟨table, htable, rfl⟩

theorem update_succeeds {row : Record} {condition : Sql.Expr} {change : Sql.Update}
    (hrun : Succeeds (planner.update path row condition) memo change after) :
    ∃ table middle, Succeeds (planner.tableAt path) memo table middle ∧
      change = ⟨table.schema, table.table, row.map fun field => (field.1, .ofJson field.2),
        some condition⟩ := by
  rw [Planner.update] at hrun
  obtain ⟨table, middle, htable, hrest⟩ := Succeeds.bind_iff.mp hrun
  obtain ⟨_, checked, -, hrest⟩ := Succeeds.bind_iff.mp hrest
  obtain ⟨rfl, rfl⟩ := Succeeds.pure_iff.mp hrest
  exact ⟨table, middle, htable, rfl⟩

theorem insertion_succeeds {rows : List Record} {change : Sql.Insert}
    (hrun : Succeeds (planner.insertion path rows) memo change after) :
    ∃ table middle, Succeeds (planner.tableAt path) middle table after ∧
      change = ⟨table.schema, table.table, rowColumns rows,
        rows.map fun row => (rowColumns rows).map (cell row)⟩ := by
  rw [insertion] at hrun
  obtain ⟨_, checked, -, hrest⟩ := Succeeds.bind_iff.mp hrun
  obtain ⟨table, middle, htable, hrest⟩ := Succeeds.bind_iff.mp hrest
  obtain ⟨rfl, rfl⟩ := Succeeds.pure_iff.mp hrest
  exact ⟨table, checked, htable, rfl⟩

/-- Whatever is no query is a guarded change. -/
theorem Plans.guarded (hplans : planner.Plans path gathered memo after statement)
    (hkind : statement.kind ≠ .select) : GuardedChange statement := by
  cases hplans with
  | select => exact absurd rfl hkind
  | insert => trivial
  | delete _ _ _ hdelete =>
      obtain ⟨table, -, rfl⟩ := deletion_succeeds hdelete
      exact ⟨_, rfl⟩
  | update _ _ _ hupdate =>
      obtain ⟨table, _, -, rfl⟩ := update_succeeds hupdate
      exact ⟨_, rfl⟩

/-- A bucket with rows never becomes a query. -/
theorem build_guarded_of_rows (hrows : bucket.rows ≠ [])
    (hrun : Succeeds (planner.build bucket) memo statement after) : GuardedChange statement := by
  obtain ⟨gathered, middle, hgather, hplans⟩ := build_plans hrun
  refine hplans.guarded ?_
  cases hplans with
  | select _ hnone => exact absurd ((gather_rows hgather).symm.trans hnone) hrows
  | delete | insert | update => exact nofun

/-- A bucket that asks for no data back never becomes a query. -/
theorem build_guarded_of_not_projection (hprojection : bucket.isProjection = false)
    (hrun : Succeeds (planner.build bucket) memo statement after) : GuardedChange statement := by
  obtain ⟨gathered, middle, -, hplans⟩ := build_plans hrun
  refine hplans.guarded fun hkind => ?_
  have hclosed : Memo.Closed planner.schema (fun _ => True) memo :=
    fun _ _ _ _ _ _ _ _ => ⟨trivial, trivial⟩
  obtain ⟨-, columns, hgathers, hselects, -⟩ :=
    build_succeeds hclosed trivial (fun _ _ _ _ _ _ => trivial) hrun
  rw [hselects, hgathers.ne_nil_iff] at hkind
  have hasks := bucket.isProjection_iff.not.mp (by simp [hprojection])
  rcases hkind with hcolumn | htotal
  · cases hcolumn with
    | own hcolumn => exact hasks (.inl ⟨_, hcolumn⟩)
    | joined hchild => exact hasks (.inr (.inl ⟨_, hchild⟩))
  · exact hasks (.inr (.inr htotal))

end Planner

end TreeQuery.Plan
