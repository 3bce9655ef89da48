import TreeQuery.Proofs.Plan.TableNames
import TreeQuery.Proofs.Session.RowUpdates

/-!
# Replaced rows

A bucket with upserts first deletes what each of them selects and then inserts its own rows, all
by one statement and whatever clauses it has.  All of it concerns one table, so the statements are
those that are planned before the first one is sent.
-/

namespace TreeQuery.Session

open Catalog (Memo Schema)
open Extension (Registry)
open Plan (Changes Planner deletionFrom insertionInto)

/-! ## The tasks of a replacement -/

/-- The deletion of what an expression selects in a table. -/
def removal (table : String) (expression : Expression) : Bucket where
  name := table
  elements := [.clause expression]

/-- What is left of a bucket behind its upserts: neither these nor its clauses. -/
def replacement (bucket : Bucket) : Bucket :=
  withoutClauses
    { bucket with elements := bucket.elements.filter fun element => element.beacon?.isNone }

/-- The tasks of a replacement: a deletion for each of the expressions, then the rows. -/
def replacementTasks (bucket : Bucket) (expressions : List Expression) : List WriteTask :=
  expressions.map (fun expression => .remove (removal bucket.name expression)) ++
    [.writeWhole (replacement bucket)]

variable {bucket : Bucket} {expressions : List Expression} {writer : Writer}

theorem replacement_elements (bucket : Bucket) (element : Element) :
    element ∈ (replacement bucket).elements ↔
      element ∈ bucket.elements ∧ element.beacon? = none ∧ element.clause? = none := by
  rw [replacement, withoutClauses, List.mem_filter, List.mem_filter, and_assoc]
  exact and_congr_right fun _ =>
    and_congr Option.isNone_iff_eq_none Option.isNone_iff_eq_none

theorem replacement_rows (bucket : Bucket) : (replacement bucket).rows = bucket.rows := by
  rw [Bucket.rows, Bucket.rows, replacement, withoutClauses, List.filterMap_filter,
    List.filterMap_filter]
  refine List.filterMap_congr fun element _ => ?_
  rcases element with (_ | _) | _ | _ | _ | _ | _ <;> rfl

theorem replacement_expressions (bucket : Bucket) : (replacement bucket).expressions = [] := by
  rw [Bucket.expressions, List.filterMap_eq_nil_iff]
  exact fun element helement => ((replacement_elements bucket element).mp helement).2.2

theorem replacement_isProjection (hprojection : bucket.isProjection = false) :
    (replacement bucket).isProjection = false := by
  apply isProjection_of_elements hprojection
  intro element helement
  left
  exact ((replacement_elements bucket element).mp helement).1

theorem rootPath_eq (hprojection : bucket.isProjection = false) :
    bucket.rootPath = [{ name := bucket.name }] := by
  rw [Bucket.rootPath, hprojection]
  rfl

theorem replacement_rootPath (hprojection : bucket.isProjection = false) :
    (replacement bucket).rootPath = [{ name := bucket.name }] :=
  rootPath_eq (replacement_isProjection hprojection)

theorem writeTasks_upserts (hbeacons : bucket.beacons = expressions.map Beacon.upsert)
    (hsome : expressions ≠ []) : writeTasks bucket = replacementTasks bucket expressions := by
  have hreplaces : (expressions.map Beacon.upsert).any replacesRows = true := by
    obtain ⟨expression, rest, rfl⟩ := List.exists_cons_of_ne_nil hsome
    rfl
  have hdeletions : (expressions.map Beacon.upsert).flatMap (beaconTasks bucket.name) =
      expressions.map fun expression => .remove (removal bucket.name expression) := by
    rw [List.flatMap_map]
    exact List.map_eq_flatMap.symm
  have hunfiltered : filtersRows (replacement bucket) = false := by
    rw [filtersRows]
    have hnone := replacement_expressions bucket
    rw [Bucket.expressions] at hnone
    rw [hnone]
    rfl
  rw [writeTasks, hbeacons, hdeletions, leftBy, if_pos hreplaces, replacementTasks]
  change _ ++ ownTasks (replacement bucket) = _
  rw [ownTasks, hunfiltered, Bool.and_false, if_neg Bool.false_ne_true]

/-! ## What is planned for them -/

/-- The statement deletes what an expression compiles to, from the table that the schema answers
for a name. -/
def DeletesSelected (schema : Schema) (memo : Memo) (name : String) (expression : Expression)
    (statement : Sql.Statement) : Prop :=
  ∃ table condition after, schema.tableAnswer? memo [{ name }] = some table ∧
    Succeeds (Plan.Predicate.ofExpression schema [{ name }] expression) memo (some condition)
      after ∧
    statement = .delete (deletionFrom table condition)

/-- The statement inserts rows into the table that the schema answers for a name. -/
def InsertsRows (schema : Schema) (memo : Memo) (name : String) (rows : List Record)
    (statement : Sql.Statement) : Prop :=
  ∃ table, schema.tableAnswer? memo [{ name }] = some table ∧
    statement = .insert (insertionInto table rows)

theorem removal_isProjection (name : String) (expression : Expression) :
    (removal name expression).isProjection = false := rfl

theorem removal_concerns (writer : Writer) (name : String) (expression : Expression) :
    (WriteTask.remove (removal name expression)).Concerns writer [{ name }] :=
  Planner.build_confined writer.planner (removal_isProjection name expression)

theorem removal_deletes {name : String} {expression : Expression} {memo : Memo}
    {statement : Sql.Statement}
    (hplanned : (WriteTask.remove (removal name expression)).PlannedAs writer memo statement) :
    DeletesSelected writer.schema memo name expression statement := by
  obtain ⟨after, hplan⟩ := hplanned
  obtain ⟨filter, middle, table, hfilter, htable, hchanges⟩ :=
    Planner.build_changes (removal_isProjection name expression) hplan
  generalize hrows : (removal name expression).rows = rows at hchanges
  cases hchanges with
  | @delete condition =>
      obtain ⟨last, hcondition⟩ := Plan.compiledFilter_singleton hfilter
      exact ⟨table, condition, last, htable, hcondition, rfl⟩
  | insert hsome => exact absurd hrows.symm hsome
  | update => cases hrows

theorem replacement_concerns (writer : Writer) (hprojection : bucket.isProjection = false) :
    (WriteTask.writeWhole (replacement bucket)).Concerns writer [{ name := bucket.name }] := by
  have hbuild := Planner.build_confined writer.planner (replacement_isProjection hprojection)
  rw [replacement_rootPath hprojection] at hbuild
  refine hbuild.bind fun statement => ?_
  cases statement with
  | select query => exact .throw _
  | insert change | update change | delete change => exact .pure _

theorem replacementTasks_concern (writer : Writer) (hprojection : bucket.isProjection = false) :
    ∀ task ∈ replacementTasks bucket expressions,
      task.Concerns writer [{ name := bucket.name }] := by
  refine List.forall_mem_append.mpr ⟨fun task htask => ?_, fun task htask => ?_⟩
  · obtain ⟨expression, -, rfl⟩ := List.mem_map.mp htask
    exact removal_concerns writer bucket.name expression
  · rw [List.mem_singleton.mp htask]
    exact replacement_concerns writer hprojection

theorem replacement_inserts {memo : Memo} {statement : Sql.Statement}
    (hprojection : bucket.isProjection = false)
    (hplanned : (WriteTask.writeWhole (replacement bucket)).PlannedAs writer memo statement) :
    InsertsRows writer.schema memo bucket.name bucket.rows statement := by
  obtain ⟨after, hplan⟩ := hplanned
  obtain ⟨filter, middle, table, hfilter, htable, hchanges⟩ := Planner.build_changes
    (replacement_isProjection hprojection) (WriteTask.plan_writeWhole_succeeds hplan).1
  rw [replacement_expressions, Plan.compiledFilter_nil] at hfilter
  obtain ⟨rfl, -⟩ := Succeeds.pure_iff.mp hfilter
  rw [replacement_rootPath hprojection] at htable
  rw [replacement_rows] at hchanges
  generalize bucket.rows = rows at hchanges ⊢
  cases hchanges with
  | insert => exact ⟨table, htable, rfl⟩

/-! ## How a replacement goes -/

/-- What a replacement sends: deletions for the first of the expressions, or for all of them and
then one insertion of the rows. -/
inductive Replaces (schema : Schema) (memo : Memo) (name : String) (expressions : List Expression)
    (rows : List Record) : List Sql.Statement → Prop
  | deleting {tried : List Expression} {deletions : List Sql.Statement}
      (htried : tried <+: expressions)
      (hdeletes : List.Forall₂ (DeletesSelected schema memo name) tried deletions) :
      Replaces schema memo name expressions rows deletions
  | inserted {deletions : List Sql.Statement} {insertion : Sql.Statement}
      (hdeletes : List.Forall₂ (DeletesSelected schema memo name) expressions deletions)
      (hinserts : InsertsRows schema memo name rows insertion) :
      Replaces schema memo name expressions rows (deletions ++ [insertion])

theorem forall₂_deletes {memo : Memo} {name : String} {statements : List Sql.Statement}
    (hplanned : List.Forall₂ (WriteTask.PlannedAs writer memo)
      (expressions.map fun expression => .remove (removal name expression)) statements) :
    List.Forall₂ (DeletesSelected writer.schema memo name) expressions statements :=
  (List.forall₂_map_left_iff.mp hplanned).imp fun _ _ => removal_deletes

/-- Where everything was planned, the insertion was planned last. -/
theorem forall₂_inserted {memo : Memo} {statements : List Sql.Statement}
    (hprojection : bucket.isProjection = false)
    (hplanned : List.Forall₂ (WriteTask.PlannedAs writer memo)
      (replacementTasks bucket expressions) statements) :
    ∃ deletions insertion, statements = deletions ++ [insertion] ∧
      List.Forall₂ (DeletesSelected writer.schema memo bucket.name) expressions deletions ∧
      InsertsRows writer.schema memo bucket.name bucket.rows insertion := by
  rw [replacementTasks] at hplanned
  have hdeletions := (List.forall₂_take_append _ _ _ hplanned.flip).flip
  have hlast := List.forall₂_drop_append _ _ _ hplanned.flip
  generalize hrest : statements.drop _ = rest at hlast
  cases hlast with
  | @cons insertion _ _ _ hinsertion hnone =>
      cases hnone
      exact ⟨_, insertion, by rw [← hrest, List.take_append_drop], forall₂_deletes hdeletions,
        replacement_inserts hprojection hinsertion⟩

/-- What a replacement sends was planned before the first of it was sent. -/
theorem Course.replaces {start : State} {outcome : Except Failure UInt64} {calls : List Call}
    (hprojection : bucket.isProjection = false)
    (hcourse : Course writer start (replacementTasks bucket expressions) outcome calls) :
    ∃ statements, calls = statements.map Call.execute ∧
      Replaces writer.schema start.memo bucket.name expressions bucket.rows statements ∧
      ∀ count, outcome = .ok count → ∃ deletions insertion,
        statements = deletions ++ [insertion] ∧
        List.Forall₂ (DeletesSelected writer.schema start.memo bucket.name) expressions deletions ∧
        InsertsRows writer.schema start.memo bucket.name bucket.rows insertion := by
  obtain ⟨tried, statements, htried, rfl, hplanned, hfull⟩ :=
    hcourse.planned (replacementTasks_concern writer hprojection)
  refine ⟨statements, rfl, ?_⟩
  rcases List.prefix_concat_iff.mp htried with rfl | hdeleting
  · obtain ⟨deletions, insertion, rfl, hdeletes, hinserts⟩ := forall₂_inserted hprojection hplanned
    exact ⟨.inserted hdeletes hinserts, fun _ _ => ⟨deletions, insertion, rfl, hdeletes, hinserts⟩⟩
  · have hshort := hdeleting.length_le
    obtain ⟨untried, htasks⟩ := hdeleting
    obtain ⟨done, later, rfl, rfl, -⟩ := List.map_eq_append_iff.mp htasks.symm
    refine ⟨.deleting (List.prefix_append done later) (forall₂_deletes hplanned),
      fun count hcount => ?_⟩
    rw [hfull count hcount, replacementTasks, List.length_append, List.length_singleton] at hshort
    exact absurd hshort (Nat.not_succ_le_self _)

/-- Removals write nothing. -/
theorem written_removals {executions : List Execution} {buckets : List Bucket}
    (hremovals : executions.map Execution.task = buckets.map .remove) : written executions = 0 := by
  refine List.sum_eq_zero fun count hcount => ?_
  obtain ⟨execution, hexecution, rfl⟩ := List.mem_map.mp hcount
  have hremoved : execution.task ∈ buckets.map WriteTask.remove :=
    hremovals ▸ List.mem_map_of_mem hexecution
  obtain ⟨bucket, -, htask⟩ := List.mem_map.mp hremoved
  rw [Execution.writtenRows, ← htask]

/-- Only the last of these tasks writes rows, so the store's answer to it is what counts. -/
theorem Course.counts_last {start : State} {buckets : List Bucket} {last : Bucket}
    {count : UInt64} {calls : List Call}
    (hcourse : Course writer start (buckets.map .remove ++ [.writeWhole last]) (.ok count) calls) :
    ∃ earlier statement result, calls = earlier ++ [.execute statement] ∧
      writer.connection.execute (start.history ++ earlier) statement = .ok result ∧
      (result.changedRows < 2 ^ 64 → count.toNat = result.changedRows) := by
  cases hcourse with
  | completed htasks hcarried hcount =>
      obtain ⟨removals, final, rfl, hremovals, hfinal⟩ := List.map_eq_append_iff.mp htasks
      obtain ⟨execution, rfl, htask⟩ := List.map_eq_singleton_iff.mp hfinal
      have hanswer : execution.writtenRows = execution.outcome.changedRows := by
        rw [Execution.writtenRows, htask]
      have hwritten : written (removals ++ [execution]) = execution.outcome.changedRows := by
        rw [written_concat, written_removals hremovals, Nat.zero_add, hanswer]
      refine ⟨removals.map Execution.call, execution.statement, execution.outcome, ?_,
        hcarried.of_concat, hwritten ▸ hcount⟩
      rw [List.map_append]
      rfl

/-- The statement that a call executes. -/
def Call.statement? : Call → Option Sql.Statement
  | .execute statement => some statement
  | .begin | .commit | .rollback => none

theorem filterMap_statement? (statements : List Sql.Statement) {ending : Call}
    (hending : ending.statement? = none) :
    (.begin :: statements.map Call.execute ++ [ending]).filterMap Call.statement? =
      statements := by
  have hexecuted : (statements.map Call.execute).filterMap Call.statement? = statements := by
    rw [List.filterMap_map]
    exact List.filterMap_some
  rw [List.filterMap_append, List.filterMap_cons, hexecuted, List.filterMap_cons, hending]
  exact List.append_nil statements

/-- A write that is begun ends the course of its tasks by one more call, which on success is the
commit. -/
theorem WriteCourse.course {start : State} {tasks : List WriteTask}
    {outcome : Except Failure UInt64} {calls : List Call}
    (hcourse : WriteCourse writer start tasks outcome calls) :
    (calls = [.begin] ∧ ∃ failure, outcome = .error failure) ∨
    ∃ result inner ending, Course writer (start.called .begin) tasks result inner ∧
      calls = .begin :: inner ++ [ending] ∧ ending.statement? = none ∧
      ∀ count, outcome = .ok count → result = .ok count ∧ ending = .commit := by
  cases hcourse with
  | unbegun => exact .inl ⟨rfl, _, rfl⟩
  | rolledBack _ htaken => exact .inr ⟨_, _, _, htaken, rfl, rfl, nofun⟩
  | uncommitted _ htaken => exact .inr ⟨_, _, _, htaken, rfl, rfl, nofun⟩
  | committed _ htaken => exact .inr ⟨_, _, _, htaken, rfl, rfl, fun _ hcount => ⟨hcount, rfl⟩⟩

/-- Writing a bucket with upserts replaces rows.  The statements that are sent are the beginning
of a list that deletes what each of the upserts compiles to, in order, and then inserts the rows
of the bucket by one statement, all for the one table that the schema answers for the bucket's
name; that is the table of this name unless something else is remembered under it.  The course
that this takes is rolled back at the first failure.  Otherwise it sends all of the list and counts
the rows that the store says the insertion has changed. -/
theorem writeAll_replaces (writer : Writer) (bucket : Bucket) (start : State)
    (hbeacons : bucket.beacons = expressions.map Beacon.upsert) (hsome : expressions ≠ [])
    (hprojection : bucket.isProjection = false) :
    ∃ outcome calls finish,
      Makes (writeAll writer Registry.standard [bucket]) start outcome calls finish ∧
      WriteCourse writer start (replacementTasks bucket expressions) outcome calls ∧
      Replaces writer.schema start.memo bucket.name expressions bucket.rows
        (calls.filterMap Call.statement?) ∧
      (∀ count, outcome = .ok count → ∃ deletions insertion result,
        calls = .begin :: (deletions ++ [insertion]).map Call.execute ++ [.commit] ∧
        List.Forall₂ (DeletesSelected writer.schema start.memo bucket.name) expressions deletions ∧
        InsertsRows writer.schema start.memo bucket.name bucket.rows insertion ∧
        writer.connection.execute (start.history ++ .begin :: deletions.map Call.execute)
          insertion = .ok result ∧
        (result.changedRows < 2 ^ 64 → count.toNat = result.changedRows)) ∧
      (writer.schema.tableAnswer? start.memo [{ name := bucket.name }] =
          writer.schema.tableRef? [{ name := bucket.name }] →
        ∀ table, writer.schema.tableAnswer? start.memo [{ name := bucket.name }] = some table →
          table.table = bucket.name) := by
  obtain ⟨outcome, calls, finish, hmakes, hcourse⟩ := writeAll_makes writer [bucket] start
  rw [List.flatMap_singleton, writeTasks_upserts hbeacons hsome] at hcourse
  refine ⟨outcome, calls, finish, hmakes, hcourse, ?_, ?_,
    fun hanswer table htable => tableRef?_table (hanswer ▸ htable)⟩
  · rcases hcourse.course with ⟨rfl, -⟩ | ⟨result, inner, ending, htaken, rfl, hending, -⟩
    · exact .deleting List.nil_prefix .nil
    · obtain ⟨statements, rfl, hreplaces, -⟩ := htaken.replaces hprojection
      rw [filterMap_statement? statements hending]
      exact hreplaces
  · rintro count rfl
    rcases hcourse.course with ⟨-, _, hfailed⟩ | ⟨result, inner, ending, htaken, rfl, -, hcount⟩
    · cases hfailed
    · obtain ⟨rfl, rfl⟩ := hcount count rfl
      obtain ⟨statements, rfl, -, hfull⟩ := htaken.replaces hprojection
      obtain ⟨deletions, insertion, rfl, hdeletes, hinserts⟩ := hfull count rfl
      have htasks : replacementTasks bucket expressions =
          (expressions.map (removal bucket.name)).map .remove ++
            [.writeWhole (replacement bucket)] := by
        rw [replacementTasks, List.map_map]
        rfl
      rw [htasks] at htaken
      obtain ⟨earlier, statement, result, hsent, hexecuted, hresult⟩ := htaken.counts_last
      rw [List.map_append] at hsent
      obtain ⟨rfl, hlast⟩ := List.append_inj' hsent rfl
      obtain rfl := Call.execute.inj (List.singleton_inj.mp hlast)
      rw [State.called, List.append_assoc] at hexecuted
      exact ⟨deletions, insertion, result, rfl, hdeletes, hinserts, hexecuted, hresult⟩

/-- The books of one author, and those before a year. -/
def replacedExpressions : List Expression :=
  [[.clause ⟨"author", .compare .eq (.string "Austen")⟩],
    [.clause ⟨"year", .compare .lt (.int 1500)⟩]]

/-- Two books in place of the ones that are replaced, with a clause that is not used. -/
def replacedBooks : Bucket where
  name := "book"
  elements :=
    [.beacon (.upsert [.clause ⟨"author", .compare .eq (.string "Austen")⟩]),
      .item (.row [("title", .string "Emma")]),
      .clause [.clause ⟨"year", .compare .lt (.int 1900)⟩],
      .beacon (.upsert [.clause ⟨"year", .compare .lt (.int 1500)⟩]),
      .item (.row [("title", .string "Persuasion"), ("year", .int 1817)])]

/-- What the replacement of these books sends: what is written for one author and for the early
years is deleted, and then both rows are inserted, the first one without a year. -/
def replacingCalls : List Call :=
  [.begin,
    .execute (.delete
      { table := "book"
        condition := some
          (.binary .eq (.column (some "book") "author") (.literal (.string "Austen"))) }),
    .execute (.delete
      { table := "book"
        condition := some (.binary .lt (.column (some "book") "year") (.literal (.int 1500))) }),
    .execute (.insert
      { table := "book"
        columns := ["title", "year"]
        rows :=
          [[.literal (.string "Emma"), .literal .null],
            [.literal (.string "Persuasion"), .literal (.int 1817)]] }),
    .commit]

/-- The deletions are said to change two and three rows, and the insertion four. -/
theorem writeAll_replaces_replacedBooks :
    replacedBooks.beacons = replacedExpressions.map Beacon.upsert ∧ replacedExpressions ≠ [] ∧
    replacedBooks.isProjection = false ∧
    ∃ finish,
      Makes (writeAll bookWriter Registry.standard [replacedBooks]) {} (.ok 4) replacingCalls
        finish ∧
      WriteCourse bookWriter {} (replacementTasks replacedBooks replacedExpressions)
        (.ok 4) replacingCalls ∧
      Replaces bookWriter.schema {} "book" replacedExpressions replacedBooks.rows
        (replacingCalls.filterMap Call.statement?) ∧
      (∀ count, (.ok 4 : Except Failure UInt64) = .ok count → ∃ deletions insertion result,
        replacingCalls = .begin :: (deletions ++ [insertion]).map Call.execute ++ [.commit] ∧
        List.Forall₂ (DeletesSelected bookWriter.schema {} "book") replacedExpressions deletions ∧
        InsertsRows bookWriter.schema {} "book" replacedBooks.rows insertion ∧
        bookWriter.connection.execute (.begin :: deletions.map Call.execute) insertion =
          .ok result ∧
        (result.changedRows < 2 ^ 64 → count.toNat = result.changedRows)) ∧
      (bookWriter.schema.tableAnswer? {} [{ name := "book" }] =
          bookWriter.schema.tableRef? [{ name := "book" }] →
        ∀ table, bookWriter.schema.tableAnswer? {} [{ name := "book" }] = some table →
          table.table = "book") := by
  have hsome : replacedExpressions ≠ [] := List.cons_ne_nil _ _
  have hrun : ∃ finish, Makes (writeAll bookWriter Registry.standard [replacedBooks]) {} (.ok 4)
      replacingCalls finish := ⟨_, rfl, rfl⟩
  obtain ⟨finish, hrun⟩ := hrun
  obtain ⟨outcome, calls, last, hmakes, hall⟩ :=
    writeAll_replaces bookWriter replacedBooks {} rfl hsome rfl
  obtain ⟨rfl, rfl, rfl⟩ := hrun.unique hmakes
  exact ⟨rfl, hsome, rfl, last, hmakes, hall⟩

end TreeQuery.Session
