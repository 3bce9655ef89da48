import TreeQuery.Proofs.Plan.CompiledFilter
import TreeQuery.Proofs.Plan.Statements

/-!
# Changes of one table

A bucket that asks for no data back is planned from its name, its rows and the expressions of its
clauses.  All of it concerns one path, so planning it asks the schema about nothing else, and it
may be planned again later with the same result.
-/

namespace TreeQuery

/-- The expressions of the clauses, in order. -/
def Bucket.expressions (bucket : Bucket) : List Expression :=
  bucket.elements.filterMap ElementOf.clause?

namespace Plan

open Catalog (Lookup Memo Schema)

/-! ## Gathering without lookups -/

theorem liftExcept_bind {ε α β : Type} (first : Except ε α) (next : α → Except ε β) :
    (liftExcept (first >>= next) : Lookup ε β) =
      liftExcept first >>= fun value => liftExcept (next value) := by
  cases first <;> rfl

section Elements

variable {schema : Schema} {path : Path} {name : String}

/-- An element that asks for no data back is gathered without asking the schema. -/
theorem gatherElement_eq (hroot : path.length ≤ 1) {element : Element}
    (hplain : Bucket.readsData element = false) (gathered : Gathered) :
    ∃ limit offset beacons, ∀ clauses : ClauseSet,
      gatherElement schema path name gathered clauses element =
        (fun final => ({ gathered with
            rows := gathered.rows ++ [element].filterMap ElementOf.row?
            limit, offset, beacons }, final)) <$>
          liftExcept (([element].filterMap ElementOf.clause?).foldlM ClauseSet.push clauses) := by
  cases element with
  | bucket nested => cases hplain
  | total => cases hplain
  | item item =>
      cases item with
      | column column => cases hplain
      | row row =>
          refine ⟨gathered.limit, gathered.offset, gathered.beacons, fun clauses => ?_⟩
          rw [gatherElement, if_neg (Nat.not_lt.mpr hroot)]
          rfl
  | clause expression =>
      refine ⟨gathered.limit, gathered.offset, gathered.beacons, fun clauses => ?_⟩
      have hpush : ([ElementOf.clause expression].filterMap
          ElementOf.clause?).foldlM ClauseSet.push clauses = clauses.push expression :=
        bind_pure _
      have hrow : [ElementOf.clause expression].filterMap ElementOf.row? = [] := rfl
      rw [gatherElement, hpush, hrow, List.append_nil, map_eq_pure_bind]
  | slice slice =>
      have hrow : [ElementOf.slice slice].filterMap ElementOf.row? = [] := rfl
      rw [hrow, List.append_nil]
      cases slice with
      | limit count =>
          refine ⟨positive? count, gathered.offset, gathered.beacons, fun clauses => ?_⟩
          rw [gatherElement]
          rfl
      | offset count =>
          refine ⟨gathered.limit, positive? count, gathered.beacons, fun clauses => ?_⟩
          rw [gatherElement]
          rfl
  | beacon beacon =>
      refine ⟨gathered.limit, gathered.offset, gathered.beacons ++ [beacon], fun clauses => ?_⟩
      have hrow : [ElementOf.beacon beacon].filterMap ElementOf.row? = [] := rfl
      rw [gatherElement, hrow, List.append_nil]
      rfl

/-- Elements that ask for no data back are gathered without asking the schema: their rows in
order, and their expressions as far as these can be collected. -/
theorem gatherElements_eq (schema : Schema) (path : Path) (hroot : path.length ≤ 1)
    (name : String) {elements : List Element}
    (hplain : ∀ element ∈ elements, Bucket.readsData element = false) (gathered : Gathered) :
    ∃ limit offset beacons, ∀ clauses : ClauseSet,
      gatherElements schema path name gathered clauses elements =
        (fun final => ({ gathered with
            rows := gathered.rows ++ elements.filterMap ElementOf.row?
            limit, offset, beacons }, final)) <$>
          liftExcept ((elements.filterMap ElementOf.clause?).foldlM ClauseSet.push clauses) := by
  induction elements generalizing gathered with
  | nil =>
      refine ⟨gathered.limit, gathered.offset, gathered.beacons, fun clauses => ?_⟩
      rw [gatherElements, List.filterMap_nil, List.append_nil]
      rfl
  | cons element rest ih =>
      obtain ⟨hfirst, hrest⟩ := List.forall_mem_cons.mp hplain
      obtain ⟨_, _, _, hstep⟩ := gatherElement_eq hroot hfirst gathered
      obtain ⟨limit, offset, beacons, hlater⟩ := ih hrest _
      refine ⟨limit, offset, beacons, fun clauses => ?_⟩
      have hrows : (element :: rest).filterMap ElementOf.row? =
          [element].filterMap ElementOf.row? ++ rest.filterMap ElementOf.row? :=
        List.filterMap_append (l := [element])
      have hclauses : (element :: rest).filterMap ElementOf.clause? =
          [element].filterMap ElementOf.clause? ++ rest.filterMap ElementOf.clause? :=
        List.filterMap_append (l := [element])
      rw [gatherElements_cons, hstep, bind_map_left, hrows, hclauses, List.foldlM_append,
        liftExcept_bind, map_bind]
      apply bind_congr
      intro pushed
      rw [hlater, List.append_assoc]

end Elements

/-! ## Planning concerns one path -/

namespace Planner

variable {planner : Planner} {bucket : Bucket} {path : Path}

theorem tableAt_confined : planner.schema.Confined path (planner.tableAt path) :=
  (planner.schema.confined_table path).adapt

theorem checkColumn_confined (column : String) :
    planner.schema.Confined path (planner.checkColumn path column) :=
  (planner.schema.confined_column path column).adapt.bind fun _ => .pure _

theorem deletion_confined (condition : Sql.Expr) :
    planner.schema.Confined path (planner.deletion path condition) :=
  tableAt_confined.bind fun _ => .pure _

theorem insertion_confined (rows : List Record) :
    planner.schema.Confined path (planner.insertion path rows) := by
  have hchecked : planner.schema.Confined path
      ((rowColumns rows).forM (planner.checkColumn path)) := .forM checkColumn_confined
  exact hchecked.bind fun _ => tableAt_confined.bind fun _ => .pure _

theorem update_confined (row : Record) (condition : Sql.Expr) :
    planner.schema.Confined path (planner.update path row condition) := by
  have hchecked : planner.schema.Confined path
      (row.forM fun field => planner.checkColumn path field.1) :=
    .forM fun field => checkColumn_confined field.1
  exact tableAt_confined.bind fun _ => hchecked.bind fun _ => .pure _

theorem change_confined (gathered : Gathered) :
    planner.schema.Confined path (planner.change bucket path gathered) := by
  unfold change
  split
  · exact .throw _
  · exact .throw _
  · exact (deletion_confined _).map
  · exact (insertion_confined _).map
  · exact (update_confined _ _).map
  · exact .throw _

/-- A change is planned from the rows and the filter alone. -/
theorem change_congr {gathered other : Gathered} (hrows : gathered.rows = other.rows)
    (hfilter : gathered.hasFilter = other.hasFilter)
    (hconditions : gathered.conditions = other.conditions) :
    planner.change bucket path gathered = planner.change bucket path other := by
  simp only [change, Gathered.condition?, hrows, hfilter, hconditions]

/-- A bucket that asks for no data back is planned as a change of what its filter selects. -/
theorem build_eq (planner : Planner) (hprojection : bucket.isProjection = false) :
    planner.build bucket =
      compiledFilter planner.schema bucket.rootPath bucket.expressions >>= fun filter =>
        planner.change bucket bucket.rootPath
          { rows := bucket.rows, hasFilter := filter.1, conditions := filter.2.toList } := by
  have hplain : ∀ element ∈ bucket.elements, Bucket.readsData element = false := by
    simpa [Bucket.isProjection] using hprojection
  obtain ⟨limit, offset, beacons, helements⟩ :=
    gatherElements_eq planner.schema bucket.rootPath le_rfl bucket.name hplain {}
  have hgather : gather planner.schema bucket.rootPath bucket =
      gatherElements planner.schema bucket.rootPath bucket.name {} {} bucket.elements >>=
        fun found => gatherClauses planner.schema bucket.rootPath found.1 found.2 := by
    cases bucket
    rw [gather]
  rw [build, hgather, helements, compiledFilter]
  simp only [gatherClauses, map_eq_pure_bind, bind_assoc, pure_bind]
  refine bind_congr fun clauses => bind_congr fun condition => bind_congr fun order => ?_
  exact change_congr rfl rfl rfl

/-- Planning a bucket that asks for no data back asks about its own table only. -/
theorem build_confined (planner : Planner) (hprojection : bucket.isProjection = false) :
    planner.schema.Confined bucket.rootPath (planner.build bucket) := by
  rw [build_eq planner hprojection]
  exact (compiledFilter_confined bucket.expressions).bind fun _ => change_confined _

end Planner

/-! ## What is planned -/

/-- The deletion of the rows that meet a condition. -/
def deletionFrom (table : Sql.TableRef) (condition : Sql.Expr) : Sql.Delete :=
  ⟨table.schema, table.table, some condition⟩

/-- The insertion of rows, with null where a row has no value. -/
def insertionInto (table : Sql.TableRef) (rows : List Record) : Sql.Insert :=
  ⟨table.schema, table.table, rowColumns rows, rows.map fun row => (rowColumns rows).map (cell row)⟩

/-- The update that gives the rows that meet a condition the entries of a row. -/
def updateOf (table : Sql.TableRef) (condition : Sql.Expr) (row : Record) : Sql.Update :=
  ⟨table.schema, table.table, row.map fun field => (field.1, .ofJson field.2), some condition⟩

/-- How rows and a filter, which says whether there is one and what it compiled to, change a
table. -/
inductive Changes (table : Sql.TableRef) : List Record → Bool × Option Sql.Expr →
    Sql.Statement → Prop
  | delete {condition : Sql.Expr} :
      Changes table [] (true, some condition) (.delete (deletionFrom table condition))
  | insert {rows : List Record} {condition : Option Sql.Expr} (hrows : rows ≠ []) :
      Changes table rows (false, condition) (.insert (insertionInto table rows))
  | update {row : Record} {condition : Sql.Expr} :
      Changes table [row] (true, some condition) (.update (updateOf table condition row))

namespace Planner

variable {planner : Planner} {bucket : Bucket} {path : Path} {memo after : Memo}

theorem tableAt_answer {table : Sql.TableRef}
    (hrun : Succeeds (planner.tableAt path) memo table after) :
    planner.schema.tableAnswer? memo path = some table :=
  (@Schema.table_succeeds _ (· = path) _ _ _ _ rfl (Succeeds.adapt_iff.mp hrun)).1

/-- A bucket that asks for no data back is planned as the change that its rows and its filter
make to the table that the schema answers for it. -/
theorem build_changes {statement : Sql.Statement} (hprojection : bucket.isProjection = false)
    (hrun : Succeeds (planner.build bucket) memo statement after) :
    ∃ filter middle table,
      Succeeds (compiledFilter planner.schema bucket.rootPath bucket.expressions) memo filter
        middle ∧
      planner.schema.tableAnswer? memo bucket.rootPath = some table ∧
      Changes table bucket.rows filter statement := by
  rw [build_eq planner hprojection] at hrun
  obtain ⟨⟨hasFilter, condition⟩, middle, hfilter, hchange⟩ := Succeeds.bind_iff.mp hrun
  have halike := ((compiledFilter_confined bucket.expressions).succeeds (.refl memo) hfilter).1
  have hsingle {found : Sql.Expr} (hfound : Sql.Expr.conjunction? condition.toList = some found) :
      condition = some found := by
    cases condition with
    | none => cases hfound
    | some => exact hfound
  refine ⟨(hasFilter, condition), middle, ?_⟩
  generalize bucket.rows = rows at hchange
  -- asking about the filter first left the answer for the table as it was
  have hanswer {table : Sql.TableRef} {later last : Memo}
      (hlater : Memo.Alike planner.schema bucket.rootPath middle later)
      (htable : Succeeds (planner.tableAt bucket.rootPath) later table last) :
      planner.schema.tableAnswer? memo bucket.rootPath = some table :=
    (halike.trans hlater).table.trans (tableAt_answer htable)
  cases change_plans hchange with
  | select hasks => simp at hasks
  | delete hrows hsome hcondition hdelete =>
      obtain ⟨table, htable, rfl⟩ := deletion_succeeds hdelete
      obtain rfl := hsingle hcondition
      obtain rfl : rows = [] := hrows
      obtain rfl : hasFilter = true := hsome
      exact ⟨table, hfilter, hanswer (.refl middle) htable, .delete⟩
  | insert hrows hnone hinsert =>
      have hafter := ((insertion_confined rows).succeeds (.refl middle) hinsert).1
      obtain ⟨table, later, htable, rfl⟩ := insertion_succeeds hinsert
      have hlater := (tableAt_confined.succeeds (.refl later) htable).1
      obtain rfl : hasFilter = false := hnone
      exact ⟨table, hfilter, hanswer (hafter.trans hlater.symm) htable, .insert hrows⟩
  | update hrows hsome hcondition hupdate =>
      obtain ⟨table, last, htable, rfl⟩ := update_succeeds hupdate
      obtain rfl := hsingle hcondition
      obtain rfl : rows = [_] := hrows
      obtain rfl : hasFilter = true := hsome
      exact ⟨table, hfilter, hanswer (.refl middle) htable, .update⟩

end Planner

end Plan

end TreeQuery
