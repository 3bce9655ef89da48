import TreeQuery.Proofs.Session.Calls
import TreeQuery.Session.Client

/-!
# The tasks of a write

Which statements a write is going to make, for which buckets and in which order, can be read
off its invoice.  Each of these tasks is planned and then executed, so that it makes at most one
call, and the tasks are taken one after another until one of them fails.
-/

namespace TreeQuery.Session

open Extension (Registry)

/-- A part of a write that makes at most one statement: it removes the rows that an upsert
replaces, writes one of several rows or a whole bucket, or refuses a beacon. -/
inductive WriteTask where
  | remove (bucket : Bucket)
  | writeRow (bucket : Bucket)
  | writeWhole (bucket : Bucket)
  | refuse (key : String)

namespace WriteTask

/-- Plans the statement of a task.  Only that of a whole bucket is looked at once more, and is
refused if it is a query. -/
def plan (planner : Plan.Planner) : WriteTask → Catalog.Lookup Failure Sql.Statement
  | .remove bucket | .writeRow bucket => planner.build bucket
  | .writeWhole bucket => do
      match ← planner.build bucket with
      | .select _ => throw (.ambiguous bucket.name .writeSelects)
      | change => return change
  | .refuse key => throw (.extension key "upsert registered for a non-upsert beacon")

/-- How many of the changed rows count as written.  Removed rows do not. -/
def counted : WriteTask → Outcome → UInt64
  | .remove _, _ => 0
  | .writeRow _, outcome | .writeWhole _, outcome | .refuse _, outcome => outcome.count

/-- Executes the statement that was planned for a task. -/
def perform (writer : Writer) (task : WriteTask) : Run UInt64 := do
  let statement ← planning (task.plan writer.planner)
  return task.counted (← writer.connection.callExecute statement)

/-- Performs tasks in order and counts the rows they wrote. -/
def performAll (writer : Writer) : List WriteTask → Run UInt64
  | [] => return 0
  | task :: rest => do
      let count ← task.perform writer
      return count + (← performAll writer rest)

end WriteTask

/-! ## Reading the tasks off an invoice -/

/-- The tasks of a beacon.  The one extension of writes replaces rows, and it refuses beacons
that only have its key. -/
def beaconTasks (table : String) : Beacon → List WriteTask
  | .upsert expression => [.remove { name := table, elements := [.clause expression] }]
  | .custom key _ => if key = "upsert" then [.refuse key] else []

/-- Whether rows are replaced by a beacon. -/
def replacesRows : Beacon → Bool
  | .upsert _ => true
  | .custom _ _ => false

/-- A bucket without its own clauses. -/
def withoutClauses (bucket : Bucket) : Bucket :=
  { bucket with elements := bucket.elements.filter fun element => element.clause?.isNone }

/-- What beacons leave of a bucket to write. -/
def leftBy (beacons : List Beacon) (bucket : Bucket) : Bucket :=
  if beacons.any replacesRows then withoutClauses bucket else bucket

/-- The tasks of a bucket that asks for no extension.  Of several rows under a filter each is
written for itself, by a bucket in which it stands behind everything but rows. -/
def ownTasks (bucket : Bucket) : List WriteTask :=
  if 1 < bucket.rows.length && filtersRows bucket then
    bucket.rows.map fun row => .writeRow
      { bucket with elements :=
          (bucket.elements.filter fun element => element.row?.isNone) ++ [.item (.row row)] }
  else [.writeWhole bucket]

/-- The tasks of a bucket: those of its beacons, then its own. -/
def writeTasks (bucket : Bucket) : List WriteTask :=
  bucket.beacons.flatMap (beaconTasks bucket.name) ++ ownTasks (leftBy bucket.beacons
    { bucket with elements := bucket.elements.filter fun element => element.beacon?.isNone })

/-! ## A write performs its tasks -/

section Planning

variable {α β : Type}

theorem planning_throw (failure : Failure) :
    planning (throw failure : Catalog.Lookup Failure α) = throw failure := rfl

theorem planning_pure (value : α) : planning (pure value) = pure value := rfl

theorem planning_bind (lookup : Catalog.Lookup Failure α) (next : α → Catalog.Lookup Failure β) :
    planning (lookup >>= next) = planning lookup >>= fun value => planning (next value) := by
  refine ExceptT.ext (StateT.ext fun state => ?_)
  change (let (outcome, memo) := Id.run ((lookup >>= next).run.run state.memo)
    (outcome, { state with memo })) =
      Id.run ((planning lookup >>= fun value => planning (next value)).run.run state)
  cases hrun : Id.run (lookup.run.run state.memo) with
  | mk outcome memo =>
      rw [run_bind, run_bind, (Makes.planning hrun).run, hrun]
      cases outcome <;> rfl

end Planning

namespace WriteTask

variable {writer : Writer}

theorem perform_remove (bucket : Bucket) :
    (remove bucket).perform writer = (fun _ => 0) <$> writer.perform bucket := by
  simp [perform, plan, counted, Writer.perform, Writer.execute]

theorem perform_writeRow (bucket : Bucket) :
    (writeRow bucket).perform writer = writer.perform bucket := rfl

theorem perform_writeWhole (bucket : Bucket) :
    (writeWhole bucket).perform writer = writer.writeWhole bucket := by
  rw [perform, plan, planning_bind, bind_assoc, Writer.writeWhole]
  congr 1
  funext statement
  cases statement with
  | select query => rfl
  | insert change | update change | delete change =>
      simp [planning_pure, counted, Writer.execute, Sql.Statement.returnsRows, Sql.Statement.kind]

theorem perform_refuse (key : String) :
    (refuse key).perform writer =
      throw (.extension key "upsert registered for a non-upsert beacon") := rfl

/-- The statement of a whole bucket is the one it is planned as, which is no query. -/
theorem plan_writeWhole_succeeds {planner : Plan.Planner} {bucket : Bucket}
    {memo after : Catalog.Memo} {statement : Sql.Statement}
    (hplan : Succeeds ((writeWhole bucket).plan planner) memo statement after) :
    Succeeds (planner.build bucket) memo statement after ∧ statement.kind ≠ .select := by
  obtain ⟨planned, middle, hbuild, hplan⟩ := Succeeds.bind_iff.mp hplan
  cases planned with
  | select query => exact absurd hplan Succeeds.not_throw
  | insert change | update change | delete change =>
      obtain ⟨rfl, rfl⟩ := Succeeds.pure_iff.mp hplan
      exact ⟨hbuild, nofun⟩

theorem performAll_cons (task : WriteTask) (rest : List WriteTask) :
    performAll writer (task :: rest) =
      task.perform writer >>= fun count => (count + ·) <$> performAll writer rest := by
  simp [performAll]

theorem performAll_append (tasks later : List WriteTask) :
    performAll writer (tasks ++ later) = do
      let count ← performAll writer tasks
      return count + (← performAll writer later) := by
  induction tasks with
  | nil => simp only [performAll, List.nil_append, pure_bind, UInt64.zero_add, bind_pure]
  | cons task rest ih =>
      simp only [performAll, List.cons_append, ih, bind_assoc, pure_bind, UInt64.add_assoc]

theorem performAll_singleton (task : WriteTask) :
    performAll writer [task] = task.perform writer := by
  simp [performAll]

/-- The tasks of beacons write nothing. -/
theorem performAll_beaconTasks (table : String) (beacons : List Beacon) :
    performAll writer (beacons.flatMap (beaconTasks table)) =
      (fun _ => 0) <$> performAll writer (beacons.flatMap (beaconTasks table)) := by
  induction beacons with
  | nil => simp [performAll]
  | cons beacon rest ih =>
      rw [List.flatMap_cons, performAll_append, ih]
      cases beacon with
      | upsert expression => simp [beaconTasks, performAll_singleton, perform_remove]
      | custom key value =>
          by_cases hkey : key = "upsert"
          · simp [beaconTasks, hkey, performAll_singleton, perform_refuse]
          · simp [beaconTasks, hkey, performAll]

end WriteTask

section Writing

open WriteTask (performAll)

variable {writer : Writer}

theorem leftBy_cons (beacon : Beacon) (rest : List Beacon) (bucket : Bucket) :
    leftBy (beacon :: rest) bucket =
      leftBy rest (if replacesRows beacon then withoutClauses bucket else bucket) := by
  cases beacon with
  | upsert expression => simp [leftBy, replacesRows, withoutClauses]
  | custom key value => simp [leftBy, replacesRows]

theorem not_isClause (element : Element) :
    (!Extension.isClause element) = element.clause?.isNone := by
  cases element <;> rfl

theorem standard_lookup (key : String) :
    List.lookup key Registry.standard.write =
      if key = "upsert" then some Extension.upsert else none := by
  by_cases hkey : key = "upsert"
  · simp [Registry.standard, hkey]
  · simp [Registry.standard, List.lookup, hkey, beq_eq_false_iff_ne.mpr hkey]

/-- The standard extensions perform the tasks of the beacons. -/
theorem applyAll_eq (beacons : List Beacon) (bucket : Bucket) :
    Registry.standard.applyAll writer beacons bucket =
      (fun _ => leftBy beacons bucket) <$>
        performAll writer (beacons.flatMap (beaconTasks bucket.name)) := by
  induction beacons generalizing bucket with
  | nil => simp [Registry.applyAll, performAll, leftBy]
  | cons beacon rest ih =>
      rw [leftBy_cons, List.flatMap_cons, WriteTask.performAll_append, Registry.applyAll,
        standard_lookup]
      cases beacon with
      | upsert expression =>
          have happly : Extension.upsert.apply (.upsert expression) bucket writer =
              (fun _ => withoutClauses bucket) <$> writer.delete bucket.name expression := by
            rw [withoutClauses, ← funext not_isClause]
            rfl
          simp [Beacon.key, happly, ih, beaconTasks, replacesRows, WriteTask.performAll_singleton,
            WriteTask.perform_remove, withoutClauses, Writer.delete]
      | custom key value =>
          by_cases hkey : key = "upsert"
          · simp [Beacon.key, hkey, Extension.upsert, beaconTasks,
              WriteTask.performAll_singleton, WriteTask.perform_refuse]
          · simp [Beacon.key, hkey, beaconTasks, performAll, ih, replacesRows]

theorem writeRows_eq (bucket : Bucket) (rows : List Record) :
    writer.writeRows bucket rows =
      performAll writer (rows.map fun row => .writeRow (withOnlyRow bucket row)) := by
  induction rows with
  | nil => rfl
  | cons row rest ih =>
      rw [Writer.writeRows, ih, List.map_cons, performAll, WriteTask.perform_writeRow]

theorem write_eq (bucket : Bucket) : writer.write bucket = performAll writer (ownTasks bucket) := by
  rw [Writer.write, ownTasks]
  split
  · exact writeRows_eq bucket bucket.rows
  · rw [WriteTask.performAll_singleton, WriteTask.perform_writeWhole]

/-- Writing buckets with the standard extensions performs their tasks in order. -/
theorem writeBuckets_eq (invoice : Invoice) :
    writeBuckets writer Registry.standard invoice =
      performAll writer (invoice.flatMap writeTasks) := by
  induction invoice with
  | nil => rfl
  | cons bucket rest ih =>
      rw [writeBuckets, Registry.prepareWrite, applyAll_eq, List.flatMap_cons, writeTasks,
        List.append_assoc, WriteTask.performAll_append, WriteTask.performAll_append,
        WriteTask.performAll_beaconTasks]
      simp [write_eq, ih]

end Writing

/-! ## How tasks go -/

/-- A statement that was executed for a task, and what came of it. -/
structure Execution where
  task : WriteTask
  statement : Sql.Statement
  outcome : Outcome

/-- The call that an execution made. -/
def Execution.call (execution : Execution) : Call := .execute execution.statement

/-- How many rows the store says it has changed, or how many it has given back. -/
def Outcome.changedRows : Outcome → Nat
  | .affected rowCount => rowCount.toNat
  | .rows records => records.length

/-- How many rows an execution wrote.  Those that it removed do not count. -/
def Execution.writtenRows (execution : Execution) : Nat :=
  match execution.task with
  | .remove _ => 0
  | .writeRow _ | .writeWhole _ | .refuse _ => execution.outcome.changedRows

/-- The rows that executions wrote, all together. -/
def written (executions : List Execution) : Nat :=
  (executions.map Execution.writtenRows).sum

/-- Executions that follow one another from one state to another: each has the statement that
was planned for its task and the answer that the connection gives at its place. -/
inductive Carried (writer : Writer) : List Execution → State → State → Prop
  | nil {state : State} : Carried writer [] state state
  | cons {execution : Execution} {rest : List Execution} {start finish : State}
      {memo : Catalog.Memo}
      (hplan : Succeeds (execution.task.plan writer.planner) start.memo execution.statement memo)
      (hexecute : writer.connection.execute start.history execution.statement =
        .ok execution.outcome)
      (hrest : Carried writer rest
        { memo, history := start.history ++ [execution.call] } finish) :
      Carried writer (execution :: rest) start finish

/-- How a task fails from a state, and the calls that it made before. -/
inductive WriteTask.Fails (writer : Writer) (task : WriteTask) (start : State) :
    Failure → List Call → Prop
  | unplanned {failure : Failure} {memo : Catalog.Memo}
      (hplan : Id.run ((task.plan writer.planner).run.run start.memo) = (.error failure, memo)) :
      Fails writer task start failure []
  | unexecuted {statement : Sql.Statement} {memo : Catalog.Memo} {problem : ConnectionError}
      (hplan : Succeeds (task.plan writer.planner) start.memo statement memo)
      (hexecute : writer.connection.execute start.history statement = .error problem) :
      Fails writer task start (.connection problem) [.execute statement]

/-- How tasks go from a state: each is carried out, or those before the first one that fails. -/
inductive Course (writer : Writer) (start : State) (tasks : List WriteTask) :
    Except Failure UInt64 → List Call → Prop
  | completed {executions : List Execution} {finish : State} {count : UInt64}
      (htasks : executions.map Execution.task = tasks)
      (hcarried : Carried writer executions start finish)
      (hcount : written executions < 2 ^ 64 → count.toNat = written executions) :
      Course writer start tasks (.ok count) (executions.map Execution.call)
  | broken {executions : List Execution} {failing : WriteTask} {later : List WriteTask}
      {middle : State} {failure : Failure} {attempted : List Call}
      (htasks : executions.map Execution.task ++ failing :: later = tasks)
      (hcarried : Carried writer executions start middle)
      (hfails : failing.Fails writer middle failure attempted) :
      Course writer start tasks (.error failure) (executions.map Execution.call ++ attempted)

/-! ## What is counted -/

theorem Outcome.count_eq (outcome : Outcome) : outcome.count = .ofNat outcome.changedRows := by
  cases outcome with
  | rows records => rfl
  | affected rowCount => exact UInt64.ofNat_toNat.symm

/-- The program counts an execution by the last 64 bits of the number of rows it wrote. -/
theorem Execution.counted_eq (execution : Execution) :
    execution.task.counted execution.outcome = .ofNat execution.writtenRows := by
  obtain ⟨task, statement, outcome⟩ := execution
  cases task with
  | remove bucket => rfl
  | writeRow bucket | writeWhole bucket | refuse key => exact outcome.count_eq

theorem written_cons (execution : Execution) (rest : List Execution) :
    written (execution :: rest) = execution.writtenRows + written rest :=
  List.sum_cons

theorem written_concat (executions : List Execution) (execution : Execution) :
    written (executions ++ [execution]) = written executions + execution.writtenRows := by
  rw [written, List.map_append, List.sum_append]
  rfl

/-! ## How tasks are taken -/

section Running

variable {writer : Writer} {start : State}

/-- A task that is not carried out fails. -/
theorem WriteTask.perform_makes (task : WriteTask) (start : State) :
    (∃ statement outcome memo, Succeeds (task.plan writer.planner) start.memo statement memo ∧
      writer.connection.execute start.history statement = .ok outcome ∧
      Makes (task.perform writer) start (.ok (task.counted outcome)) [.execute statement]
        { memo, history := start.history ++ [.execute statement] }) ∨
    ∃ failure attempted finish, task.Fails writer start failure attempted ∧
      Makes (task.perform writer) start (.error failure) attempted finish := by
  cases hplan : Id.run ((task.plan writer.planner).run.run start.memo) with
  | mk planned memo =>
      have hplanning : Makes (planning (task.plan writer.planner)) start planned []
          { start with memo } := Makes.planning hplan
      cases planned with
      | error failure => exact .inr ⟨failure, [], _, .unplanned hplan, hplanning.bind_error⟩
      | ok statement =>
          have hcall := Makes.record (.execute statement)
            (fun history => writer.connection.execute history statement) { start with memo }
          cases hexecute : writer.connection.execute start.history statement with
          | error problem =>
              simp only [hexecute] at hcall
              exact .inr ⟨_, _, _, .unexecuted hplan hexecute, hplanning.bind hcall.bind_error⟩
          | ok outcome =>
              simp only [hexecute] at hcall
              exact .inl ⟨statement, outcome, memo, hplan, hexecute,
                hplanning.bind (hcall.bind (.pure _ _))⟩

/-- A task that is carried out comes before whatever course the tasks after it take. -/
theorem Course.cons {execution : Execution} {tasks : List WriteTask} {memo : Catalog.Memo}
    {outcome : Except Failure UInt64} {calls : List Call}
    (hplan : Succeeds (execution.task.plan writer.planner) start.memo execution.statement memo)
    (hexecute : writer.connection.execute start.history execution.statement =
      .ok execution.outcome)
    (hcourse : Course writer { memo, history := start.history ++ [execution.call] } tasks
      outcome calls) :
    Course writer start (execution.task :: tasks)
      (outcome.map (execution.task.counted execution.outcome + ·))
      (execution.call :: calls) := by
  cases hcourse with
  | @completed executions finish count htasks hcarried hcount =>
      have hall : (execution :: executions).map Execution.task = execution.task :: tasks := by
        rw [List.map_cons, htasks]
      refine completed hall (.cons hplan hexecute hcarried) fun hbound => ?_
      rw [written_cons] at hbound ⊢
      have hrest : count = .ofNat (written executions) := by
        rw [← hcount (by omega), UInt64.ofNat_toNat]
      calc (execution.task.counted execution.outcome + count).toNat
          = (UInt64.ofNat (execution.writtenRows + written executions)).toNat := by
            rw [execution.counted_eq, hrest, UInt64.ofNat_add]
        _ = execution.writtenRows + written executions := UInt64.toNat_ofNat_of_lt' hbound
  | @broken executions failing later middle failure attempted htasks hcarried hfails =>
      have hall : (execution :: executions).map Execution.task ++ failing :: later =
          execution.task :: tasks := by
        rw [List.map_cons, List.cons_append, htasks]
      exact broken hall (.cons hplan hexecute hcarried) hfails

/-- From every state tasks take some course, by induction on their number. -/
theorem performAll_makes (tasks : List WriteTask) (start : State) :
    ∃ outcome calls finish, Makes (WriteTask.performAll writer tasks) start outcome calls finish ∧
      Course writer start tasks outcome calls := by
  induction tasks generalizing start with
  | nil => exact ⟨_, _, _, .pure 0 start, .completed rfl .nil fun _ => rfl⟩
  | cons task rest ih =>
      rw [WriteTask.performAll_cons]
      rcases task.perform_makes start with
        ⟨statement, outcome, memo, hplan, hexecute, hmakes⟩ |
        ⟨failure, attempted, finish, hfails, hmakes⟩
      · obtain ⟨result, calls, finish, hrest, hcourse⟩ :=
          ih { memo, history := start.history ++ [.execute statement] }
        have hcarried : Course writer start (task :: rest)
            (result.map (task.counted outcome + ·)) (.execute statement :: calls) :=
          @Course.cons writer start ⟨task, statement, outcome⟩ _ _ _ _ hplan hexecute hcourse
        exact ⟨_, _, _, hmakes.bind (hrest.map _), hcarried⟩
      · exact ⟨_, _, _, hmakes.bind_error, .broken (List.nil_append _) .nil hfails⟩

end Running

/-- How a write goes that has these tasks: it is begun, its tasks are taken, and then one call
ends it, which depends on how they went. -/
inductive WriteCourse (writer : Writer) (start : State) (tasks : List WriteTask) :
    Except Failure UInt64 → List Call → Prop
  | unbegun {problem : ConnectionError}
      (hbegin : writer.connection.begin start.history = .error problem) :
      WriteCourse writer start tasks (.error (.connection problem)) [.begin]
  | rolledBack {failure : Failure} {calls : List Call}
      (hbegin : writer.connection.begin start.history = .ok ())
      (hcourse : Course writer (start.called .begin) tasks (.error failure) calls) :
      WriteCourse writer start tasks (.error failure) (.begin :: calls ++ [.rollback])
  | uncommitted {count : UInt64} {calls : List Call} {problem : ConnectionError}
      (hbegin : writer.connection.begin start.history = .ok ())
      (hcourse : Course writer (start.called .begin) tasks (.ok count) calls)
      (hcommit : writer.connection.commit (start.history ++ .begin :: calls) = .error problem) :
      WriteCourse writer start tasks (.error (.connection problem))
        (.begin :: calls ++ [.commit])
  | committed {count : UInt64} {calls : List Call}
      (hbegin : writer.connection.begin start.history = .ok ())
      (hcourse : Course writer (start.called .begin) tasks (.ok count) calls)
      (hcommit : writer.connection.commit (start.history ++ .begin :: calls) = .ok ()) :
      WriteCourse writer start tasks (.ok count) (.begin :: calls ++ [.commit])

/-- Whatever the connection answers, writing an invoice takes one of these courses through the
tasks of its buckets. -/
theorem writeAll_makes (writer : Writer) (invoice : Invoice) (start : State) :
    ∃ outcome calls finish,
      Makes (writeAll writer Registry.standard invoice) start outcome calls finish ∧
        WriteCourse writer start (invoice.flatMap writeTasks) outcome calls := by
  rw [writeAll, writeBuckets_eq]
  cases hbegin : writer.connection.begin start.history with
  | error problem => exact ⟨_, _, _, Makes.transaction_unbegun hbegin, .unbegun hbegin⟩
  | ok =>
      obtain ⟨outcome, calls, middle, hmakes, hcourse⟩ :=
        @performAll_makes writer (invoice.flatMap writeTasks) (start.called .begin)
      cases outcome with
      | error failure =>
          exact ⟨_, _, _, hmakes.transaction_rolledBack hbegin, .rolledBack hbegin hcourse⟩
      | ok count =>
          have hcommitted := hmakes.transaction_committed hbegin
          have hhistory : middle.history = start.history ++ .begin :: calls := by
            rw [hmakes.history, State.called, List.append_assoc, List.singleton_append]
          rw [hhistory] at hcommitted
          cases hcommit : writer.connection.commit (start.history ++ .begin :: calls) with
          | error problem =>
              rw [hcommit] at hcommitted
              exact ⟨_, _, _, hcommitted, .uncommitted hbegin hcourse hcommit⟩
          | ok =>
              rw [hcommit] at hcommitted
              exact ⟨_, _, _, hcommitted, .committed hbegin hcourse hcommit⟩

end TreeQuery.Session
