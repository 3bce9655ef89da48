import TreeQuery.Proofs.Catalog.Confined
import TreeQuery.Proofs.Session.WriteTasks

/-!
# Courses of tasks about one path

The tasks of a write are planned one by one, each from what the schema remembers by then.  As long
as all of them concern one path, it is as if all had been planned before the first of them was
executed.
-/

namespace TreeQuery.Session

open Catalog (Memo)

variable {writer : Writer} {path : Path} {base : Memo} {start finish : State}

/-- From a memory, the statement is planned for the task. -/
def WriteTask.PlannedAs (writer : Writer) (memo : Memo) (task : WriteTask)
    (statement : Sql.Statement) : Prop :=
  ∃ after, Succeeds (task.plan writer.planner) memo statement after

/-- A task about one path. -/
def WriteTask.Concerns (writer : Writer) (path : Path) (task : WriteTask) : Prop :=
  writer.schema.Confined path (task.plan writer.planner)

/-- What was executed for tasks about one path was planned for them from any memory with the
answers of the first one. -/
theorem Carried.planned {executions : List Execution}
    (hcarried : Carried writer executions start finish)
    (hconcerns : ∀ execution ∈ executions, execution.task.Concerns writer path)
    (hbase : Memo.Alike writer.schema path base start.memo) :
    Memo.Alike writer.schema path base finish.memo ∧
      ∀ execution ∈ executions, execution.task.PlannedAs writer base execution.statement := by
  induction hcarried with
  | nil => exact ⟨hbase, List.forall_mem_nil _⟩
  | cons hplan _ _ ih =>
      obtain ⟨hfirst, hrest⟩ := List.forall_mem_cons.mp hconcerns
      obtain ⟨hmemo, hplanned⟩ := hfirst.succeeds hbase hplan
      obtain ⟨hfinish, hothers⟩ := ih hrest hmemo
      exact ⟨hfinish, List.forall_mem_cons.mpr ⟨hplanned, hothers⟩⟩

/-- The last of several executions is answered behind all the others. -/
theorem Carried.of_concat {execution : Execution} : ∀ {executions : List Execution} {start : State},
    Carried writer (executions ++ [execution]) start finish →
      writer.connection.execute (start.history ++ executions.map Execution.call)
        execution.statement = .ok execution.outcome
  | [], start, .cons _ hexecute _ => by
      rw [List.map_nil, List.append_nil]
      exact hexecute
  | first :: rest, start, .cons _ _ hrest => by
      have hlast := of_concat hrest
      rwa [List.append_assoc, List.singleton_append] at hlast

theorem forall₂_planned {executions : List Execution}
    (hplanned : ∀ execution ∈ executions,
      execution.task.PlannedAs writer base execution.statement) :
    List.Forall₂ (WriteTask.PlannedAs writer base) (executions.map Execution.task)
      (executions.map Execution.statement) := by
  rw [List.forall₂_map_left_iff, List.forall₂_map_right_iff, List.forall₂_same]
  exact hplanned

/-- The calls of a course of tasks about one path execute what was planned for the first of them
at its start, and on success for all of them. -/
theorem Course.planned {tasks : List WriteTask} {outcome : Except Failure UInt64}
    {calls : List Call} (hcourse : Course writer start tasks outcome calls)
    (hconcerns : ∀ task ∈ tasks, task.Concerns writer path) :
    ∃ tried statements, tried <+: tasks ∧ calls = statements.map Call.execute ∧
      List.Forall₂ (WriteTask.PlannedAs writer start.memo) tried statements ∧
      ∀ count, outcome = .ok count → tried = tasks := by
  cases hcourse with
  | @completed executions finish count htasks hcarried _ =>
      subst htasks
      have hexecuted : ∀ execution ∈ executions, execution.task.Concerns writer path :=
        fun execution hexecution => hconcerns _ (List.mem_map_of_mem hexecution)
      have hplanned := (hcarried.planned hexecuted (.refl start.memo)).2
      refine ⟨_, executions.map Execution.statement, List.prefix_rfl, ?_,
        forall₂_planned hplanned, fun _ _ => rfl⟩
      rw [List.map_map]
      rfl
  | @broken executions failing later middle failure attempted htasks hcarried hfails =>
      subst htasks
      obtain ⟨hexecuted, hlater⟩ := List.forall_mem_append.mp hconcerns
      have hcarriedOut : ∀ execution ∈ executions, execution.task.Concerns writer path :=
        fun execution hexecution => hexecuted _ (List.mem_map_of_mem hexecution)
      obtain ⟨hmiddle, hplanned⟩ := hcarried.planned hcarriedOut (.refl start.memo)
      cases hfails with
      | unplanned =>
          refine ⟨_, executions.map Execution.statement, List.prefix_append _ _, ?_,
            forall₂_planned hplanned, nofun⟩
          rw [List.map_map, List.append_nil]
          rfl
      | @unexecuted statement memo problem hplan _ =>
          have hfailing := (hlater failing List.mem_cons_self).succeeds hmiddle hplan
          refine ⟨executions.map Execution.task ++ [failing],
            executions.map Execution.statement ++ [statement], ?_, ?_, ?_, nofun⟩
          · exact ⟨later, by rw [List.append_assoc]; rfl⟩
          · rw [List.map_append, List.map_map]
            rfl
          · exact List.rel_append (forall₂_planned hplanned) (.cons hfailing.2 .nil)

/-- Where one statement is planned for each entry, these statements are sent in order, as far as
the course goes. -/
theorem Course.sends {α : Type} {entries : List α} {task : α → WriteTask}
    (statementOf : α → Sql.Statement) {outcome : Except Failure UInt64} {calls : List Call}
    (hcourse : Course writer start (entries.map task) outcome calls)
    (hconcerns : ∀ entry ∈ entries, (task entry).Concerns writer path)
    (hplanned : ∀ entry ∈ entries, ∀ statement,
      (task entry).PlannedAs writer start.memo statement → statement = statementOf entry) :
    calls <+: entries.map (fun entry => .execute (statementOf entry)) ∧
      ∀ count, outcome = .ok count →
        calls = entries.map fun entry => .execute (statementOf entry) := by
  have hall : ∀ other ∈ entries.map task, other.Concerns writer path := by
    intro other hother
    obtain ⟨entry, hentry, rfl⟩ := List.mem_map.mp hother
    exact hconcerns entry hentry
  obtain ⟨tried, statements, ⟨untried, htried⟩, rfl, hstatements, hfull⟩ := hcourse.planned hall
  obtain ⟨sent, unsent, rfl, rfl, rfl⟩ := List.map_eq_append_iff.mp htried.symm
  have hsent : statements = sent.map statementOf := by
    rw [List.forall₂_map_left_iff] at hstatements
    have hsame : List.Forall₂ (fun entry statement => statementOf entry = statement)
        sent statements :=
      ((List.forall₂_and_left _ _).mpr
        ⟨(List.forall_mem_append.mp hplanned).1, hstatements⟩).imp
          fun entry statement hboth => (hboth.1 statement hboth.2).symm
    rw [← List.forall₂_map_left_iff (f := statementOf), List.forall₂_eq_eq_eq] at hsame
    exact hsame.symm
  subst hsent
  refine ⟨?_, fun count hcount => ?_⟩
  · rw [List.map_append, List.map_map]
    exact List.prefix_append _ _
  · have hunsent : unsent = [] := by simpa using hfull count hcount
    rw [hunsent, List.append_nil, List.map_map]
    rfl

end TreeQuery.Session
