import TreeQuery.Proofs.Plan.Changes
import TreeQuery.Proofs.Plan.Insertions
import TreeQuery.Proofs.Session.Guards
import TreeQuery.Proofs.Session.PlannedCourses

/-!
# Rows updated one at a time

Several rows under a filter become one update each, all of the same table and under the same
condition.  What counts as a filter is asked twice: for the way of writing by the first clause of
each expression, and for the kind of statement by what is collected.  Where the two disagree, the
expressions are refused before anything is sent.
-/

namespace TreeQuery

open Plan (ClauseSet Planner compiledFilter updateOf)

/-! ## One row at a time -/

namespace Session

variable {bucket : Bucket}

/-- A bucket with elements of one that asks for no data back, and others that ask for none
themselves, asks for none either. -/
theorem isProjection_of_elements {other : Bucket} (hprojection : bucket.isProjection = false)
    (helements : ∀ element ∈ other.elements,
      element ∈ bucket.elements ∨ Bucket.readsData element = false) :
    other.isProjection = false := by
  rw [Bucket.isProjection, List.any_eq_false] at hprojection ⊢
  intro element helement
  rcases helements element helement with hkept | hadded
  · exact hprojection element hkept
  · exact Bool.eq_false_iff.mp hadded

theorem withOnlyRow_isProjection (row : Record) (hprojection : bucket.isProjection = false) :
    (withOnlyRow bucket row).isProjection = false := by
  apply isProjection_of_elements hprojection
  intro element helement
  rcases List.mem_append.mp helement with hkept | hrow
  · exact .inl (List.mem_filter.mp hkept).1
  · obtain rfl := List.mem_singleton.mp hrow
    exact .inr rfl

theorem withOnlyRow_expressions (bucket : Bucket) (row : Record) :
    (withOnlyRow bucket row).expressions = bucket.expressions := by
  have hkept : (bucket.elements.filter fun element => element.row?.isNone).filterMap
      ElementOf.clause? = bucket.elements.filterMap ElementOf.clause? := by
    rw [List.filterMap_filter]
    refine List.filterMap_congr fun element _ => ?_
    rcases element with (_ | _) | _ | _ | _ | _ | _ <;> rfl
  rw [Bucket.expressions, withOnlyRow, List.filterMap_append, hkept]
  exact List.append_nil _

theorem withOnlyRow_rootPath (row : Record) (hprojection : bucket.isProjection = false) :
    (withOnlyRow bucket row).rootPath = bucket.rootPath := by
  rw [Bucket.rootPath, Bucket.rootPath, withOnlyRow_isProjection row hprojection, hprojection]
  rfl

/-- Each row alone is planned as an update of one table under one condition. -/
theorem exists_rowUpdate (writer : Writer) (memo : Catalog.Memo)
    (hprojection : bucket.isProjection = false)
    (hfilters : ∃ expression ∈ bucket.expressions, ∃ clause ∈ Expression.clauses expression,
      clause.operator.category = .filter) :
    ∃ table condition, ∀ row statement after,
      Succeeds (writer.planner.build (withOnlyRow bucket row)) memo statement after →
        statement = .update (updateOf table condition row) := by
  have hplanned {row : Record} {statement : Sql.Statement} {after : Catalog.Memo}
      (hrun : Succeeds (writer.planner.build (withOnlyRow bucket row)) memo statement after) :
      ∃ table condition middle,
        Succeeds (compiledFilter writer.schema bucket.rootPath bucket.expressions) memo
          (true, some condition) middle ∧
        writer.schema.tableAnswer? memo bucket.rootPath = some table ∧
        statement = .update (updateOf table condition row) := by
    obtain ⟨⟨hasFilter, filter⟩, middle, table, hfilter, htable, hchanges⟩ :=
      Planner.build_changes (withOnlyRow_isProjection row hprojection) hrun
    rw [withOnlyRow_expressions, withOnlyRow_rootPath row hprojection] at hfilter
    rw [withOnlyRow_rootPath row hprojection] at htable
    rw [withOnlyRow_rows, Plan.compiledFilter_hasFilter hfilters hfilter] at hchanges
    obtain rfl := Plan.compiledFilter_hasFilter hfilters hfilter
    cases hchanges with
    | update => exact ⟨table, _, middle, hfilter, htable, rfl⟩
  by_cases hany : ∃ row statement after,
      Succeeds (writer.planner.build (withOnlyRow bucket row)) memo statement after
  · obtain ⟨row, statement, after, hrun⟩ := hany
    obtain ⟨table, condition, middle, hfilter, htable, -⟩ := hplanned hrun
    refine ⟨table, condition, fun other otherStatement later hother => ?_⟩
    obtain ⟨otherTable, otherCondition, last, hotherFilter, hotherTable, rfl⟩ := hplanned hother
    have hcondition := hfilter.value_eq hotherFilter
    rw [htable] at hotherTable
    obtain rfl := Option.some.inj hotherTable
    obtain rfl := Option.some.inj (Prod.mk.inj hcondition).2
    rfl
  · refine ⟨{ table := "" }, .literal .null, fun row statement after hrun => ?_⟩
    exact absurd ⟨row, statement, after, hrun⟩ hany

/-- Collected expressions have clauses of one category each. -/
theorem pushAll_uniform {expressions : List Expression} : ∀ {start final : ClauseSet},
    expressions.foldlM ClauseSet.push start = .ok final →
      ∀ expression ∈ expressions, Expression.isUniform expression = true := by
  induction expressions with
  | nil => exact fun _ => nofun
  | cons first rest ih =>
      intro start final hpush
      rw [List.foldlM_cons] at hpush
      obtain ⟨middle, hfirst, hrest⟩ := bind_ok_iff.mp hpush
      exact List.forall_mem_cons.mpr ⟨(ClauseSet.push_ok hfirst).1, ih hrest⟩

/-- Where a clause filters and the first clauses do not say so, the expressions are refused. -/
theorem exists_refusal
    (hfilters : ∃ expression ∈ bucket.expressions, ∃ clause ∈ Expression.clauses expression,
      clause.operator.category = .filter) (hunseen : filtersRows bucket = false) :
    ∃ failure, bucket.expressions.foldlM ClauseSet.push {} = .error failure := by
  cases hpush : bucket.expressions.foldlM ClauseSet.push {} with
  | error failure => exact ⟨failure, rfl⟩
  | ok collected =>
      obtain ⟨expression, hexpression, hclause⟩ := hfilters
      have huniform := pushAll_uniform hpush expression hexpression
      have hcategory := (Expression.category_eq_filter_iff huniform).mpr hclause
      rw [filtersRows, List.any_eq_false] at hunseen
      exact absurd (beq_iff_eq.mpr hcategory) (hunseen expression hexpression)

/-- A bucket whose expressions are refused is not planned. -/
theorem build_refused {planner : Planner} {failure : Failure}
    (hprojection : bucket.isProjection = false)
    (hpush : bucket.expressions.foldlM ClauseSet.push {} = .error failure) :
    planner.build bucket = throw failure := by
  rw [Planner.build_eq planner hprojection, compiledFilter, hpush]
  rfl

/-- Writing takes the course of its rows, whether its filter is seen or its expressions are
refused. -/
theorem write_makes_rowCourse (writer : Writer) (start : State) (hmany : 1 < bucket.rows.length)
    (hprojection : bucket.isProjection = false)
    (hfilters : ∃ expression ∈ bucket.expressions, ∃ clause ∈ Expression.clauses expression,
      clause.operator.category = .filter) :
    ∃ outcome calls finish, Makes (writer.write bucket) start outcome calls finish ∧
      Course writer start (bucket.rows.map fun row => .writeRow (withOnlyRow bucket row))
        outcome calls := by
  cases hseen : filtersRows bucket with
  | true =>
      have htasks : ownTasks bucket =
          bucket.rows.map fun row => .writeRow (withOnlyRow bucket row) := by
        rw [ownTasks, hseen, if_pos (by simpa using hmany)]
        rfl
      rw [write_eq, htasks]
      exact performAll_makes _ start
  | false =>
      obtain ⟨failure, hpush⟩ := exists_refusal hfilters hseen
      have hwrite : writer.write bucket = throw failure := by
        rw [Writer.write, hseen, Bool.and_false, if_neg Bool.false_ne_true, Writer.writeWhole,
          build_refused hprojection hpush]
        rfl
      refine ⟨.error failure, [], start, hwrite ▸ .throw failure start, ?_⟩
      obtain ⟨row, rest, hrows⟩ := List.exists_cons_of_length_pos (Nat.zero_lt_of_lt hmany)
      rw [hrows]
      have hplan : writer.planner.build (withOnlyRow bucket row) = throw failure :=
        build_refused (withOnlyRow_isProjection row hprojection)
          (withOnlyRow_expressions bucket row ▸ hpush)
      have hrun : Id.run (((WriteTask.writeRow (withOnlyRow bucket row)).plan
          writer.planner).run.run start.memo) = (.error failure, start.memo) := by
        rw [WriteTask.plan, hplan]
        rfl
      exact .broken (List.nil_append _) .nil (.unplanned hrun)

/-- Several rows under a filter are updated one at a time.  What is sent is the beginning of a
list of updates, one for each row, which set the entries of the row and are all of the same table
and under the same condition.  It is the condition that a row is planned with when it stands
alone behind everything in the bucket that is no row.  The course that this takes ends with the
first row that cannot be planned or executed, and it sends all of the list and counts what the
store says it has changed if there is none. -/
theorem write_updates_rows (writer : Writer) (bucket : Bucket) (start : State)
    (hmany : 1 < bucket.rows.length) (hprojection : bucket.isProjection = false)
    (hfilters : ∃ expression ∈ bucket.expressions, ∃ clause ∈ Expression.clauses expression,
      clause.operator.category = .filter)
    (hsorted : ∀ row ∈ bucket.rows, (row.map Prod.fst).Pairwise (· < ·)) :
    ∃ outcome calls finish table condition,
      Makes (writer.write bucket) start outcome calls finish ∧
      Course writer start
        (bucket.rows.map fun row => .writeRow
          { bucket with elements :=
              (bucket.elements.filter fun element => element.row?.isNone) ++ [.item (.row row)] })
        outcome calls ∧
      calls <+: bucket.rows.map (fun row => .execute (.update (updateOf table condition row))) ∧
      (∀ count, outcome = .ok count →
        calls = bucket.rows.map fun row => .execute (.update (updateOf table condition row))) ∧
      ∀ row ∈ bucket.rows,
        ((updateOf table condition row).assignments.map Prod.fst).Pairwise (· < ·) ∧
        ∀ statement after,
          Succeeds (writer.planner.build
            { bucket with elements :=
                (bucket.elements.filter fun element => element.row?.isNone) ++ [.item (.row row)] })
              start.memo statement after →
            statement = .update (updateOf table condition row) := by
  obtain ⟨outcome, calls, finish, hmakes, hcourse⟩ :=
    write_makes_rowCourse writer start hmany hprojection hfilters
  obtain ⟨table, condition, hupdates⟩ := exists_rowUpdate writer start.memo hprojection hfilters
  have hconcerns (row : Record) :
      (WriteTask.writeRow (withOnlyRow bucket row)).Concerns writer bucket.rootPath := by
    rw [← withOnlyRow_rootPath row hprojection]
    exact Planner.build_confined writer.planner (withOnlyRow_isProjection row hprojection)
  obtain ⟨hsent, hfull⟩ := hcourse.sends (fun row => .update (updateOf table condition row))
    (fun row _ => hconcerns row)
    fun row _ statement hplanned => hplanned.elim fun after => hupdates row statement after
  refine ⟨outcome, calls, finish, table, condition, hmakes, hcourse, hsent, hfull,
    fun row hrow => ⟨?_, hupdates row⟩⟩
  have hkeys : (updateOf table condition row).assignments.map Prod.fst = row.map Prod.fst := by
    rw [updateOf, List.map_map]
    rfl
  rw [hkeys]
  exact hsorted row hrow

/-- A connection on which every statement changes one row more than calls were made before. -/
def Connection.changingMore : Connection where
  begin _ := .ok ()
  execute history _ := .ok (.affected (.ofNat (history.length + 1)))
  commit _ := .ok ()
  rollback _ := .ok ()

/-- A writer of the books' table. -/
def bookWriter : Writer where
  schema := Planner.bookPlanner.schema
  connection := .changingMore

/-- Two titles, one with its year, for the books before 1900. -/
def retitledBooks : Bucket where
  name := "book"
  elements :=
    [.item (.row [("title", .string "Emma")]),
      .clause [.clause ⟨"year", .compare .lt (.int 1900)⟩],
      .item (.row [("title", .string "Persuasion"), ("year", .int 1817)])]

/-- The one clause of these books, as it is written. -/
def beforeNineteenHundred : Sql.Expr :=
  .binary .lt (.column (some "book") "year") (.literal (.int 1900))

/-- The two updates of these books. -/
def retitlings : List Call :=
  [.execute (.update
      { table := "book"
        assignments := [("title", .literal (.string "Emma"))]
        condition := some beforeNineteenHundred }),
    .execute (.update
      { table := "book"
        assignments := [("title", .literal (.string "Persuasion")), ("year", .literal (.int 1817))]
        condition := some beforeNineteenHundred })]

/-- The first update changes one row and the second one two. -/
theorem write_updates_rows_retitledBooks :
    1 < retitledBooks.rows.length ∧ retitledBooks.isProjection = false ∧
    (∃ expression ∈ retitledBooks.expressions, ∃ clause ∈ Expression.clauses expression,
      clause.operator.category = .filter) ∧
    (∀ row ∈ retitledBooks.rows, (row.map Prod.fst).Pairwise (· < ·)) ∧
    ∃ finish table condition,
      Makes (bookWriter.write retitledBooks) {} (.ok 3) retitlings finish ∧
      Course bookWriter {}
        (retitledBooks.rows.map fun row => .writeRow
          { name := "book"
            elements :=
              [.clause [.clause ⟨"year", .compare .lt (.int 1900)⟩], .item (.row row)] })
        (.ok 3) retitlings ∧
      retitlings <+: retitledBooks.rows.map
        (fun row => .execute (.update (updateOf table condition row))) ∧
      (∀ count, (.ok 3 : Except Failure UInt64) = .ok count →
        retitlings = retitledBooks.rows.map
          fun row => .execute (.update (updateOf table condition row))) ∧
      ∀ row ∈ retitledBooks.rows,
        ((updateOf table condition row).assignments.map Prod.fst).Pairwise (· < ·) ∧
        ∀ statement after,
          Succeeds (bookWriter.planner.build
            { name := "book"
              elements :=
                [.clause [.clause ⟨"year", .compare .lt (.int 1900)⟩], .item (.row row)] })
              {} statement after →
            statement = .update (updateOf table condition row) := by
  have hmany : 1 < retitledBooks.rows.length := by decide
  have hfilters : ∃ expression ∈ retitledBooks.expressions,
      ∃ clause ∈ Expression.clauses expression, clause.operator.category = .filter :=
    ⟨_, List.mem_singleton_self _, _, List.mem_singleton_self _, rfl⟩
  have hsorted : ∀ row ∈ retitledBooks.rows, (row.map Prod.fst).Pairwise (· < ·) := by decide
  have hrun : ∃ finish, Makes (bookWriter.write retitledBooks) {} (.ok 3) retitlings finish :=
    ⟨_, rfl, rfl⟩
  obtain ⟨finish, hrun⟩ := hrun
  obtain ⟨outcome, calls, last, table, condition, hmakes, hall⟩ :=
    write_updates_rows bookWriter retitledBooks {} hmany rfl hfilters hsorted
  obtain ⟨rfl, rfl, rfl⟩ := hrun.unique hmakes
  exact ⟨hmany, rfl, hfilters, hsorted, last, table, condition, hmakes, hall⟩

end Session

end TreeQuery
