import TreeQuery.Proofs.Plan.Statements
import TreeQuery.Proofs.Session.Fetching
import TreeQuery.Proofs.Session.WriteTasks

/-!
# What reads and writes send

A read sends queries and nothing else, however deep what it reads is nested and however the
connection answers.  A write never sends a query, and it touches the rows that are there under a
condition only.  Where a statement is executed unseen, its bucket has rows or asks for no data
back, and neither can become a query.
-/

namespace TreeQuery.Session

open Extension (Registry)
open Plan (GuardedChange)

/-- A call that executes no statement but a query. -/
def Call.Queries : Call → Prop
  | .execute statement => statement.kind = .select
  | .begin | .commit | .rollback => True

/-- A call that executes no statement but a guarded change. -/
def Call.Changes : Call → Prop
  | .execute statement => GuardedChange statement
  | .begin | .commit | .rollback => True

/-! ## Reading -/

namespace Reader

variable {reader : Reader}

theorem fetchRows_queries (name : String) (prepared : Bucket) :
    OnlyCalls Call.Queries (reader.fetchRows name prepared) := by
  refine (OnlyCalls.planning _).bind fun _ statement _ _ => ?_
  cases statement with
  | select query =>
      have hselect : Call.Queries (.execute (.select query)) := rfl
      exact (OnlyCalls.record hselect _).bind fun _ _ _ _ => .pure _
  | insert | update | delete => exact .throw _

theorem fetchChildren_queries {read : Bucket → Run Fetched}
    (hread : ∀ bucket, OnlyCalls Call.Queries (read bucket)) (records : List Record)
    (deferred : Deferred) : OnlyCalls Call.Queries (fetchChildren read records deferred) := by
  rw [fetchChildren]
  split
  · exact .pure _
  · cases deferred.link with
    | manyToOne => exact .pure _
    | oneToMany => exact (hread _).bind fun _ _ _ _ => .pure _
    | manyToMany => exact (hread _).bind fun _ _ _ _ => .pure _

/-- A fetch sends queries only, by induction on how many may follow one another. -/
theorem fetch_queries : ∀ (depth : Nat) (bucket : Bucket),
    OnlyCalls Call.Queries (reader.fetch depth bucket)
  | 0, _ => .throw _
  | depth + 1, bucket => by
      rw [fetch]
      refine (OnlyCalls.planning _).bind fun _ found _ _ => ?_
      refine (fetchRows_queries _ _).bind fun _ rows _ _ => ?_
      refine OnlyCalls.bind (.mapM fun deferred _ =>
        fetchChildren_queries (fetch_queries depth) _ deferred) fun _ children _ _ => ?_
      exact .liftExcept _

theorem read_queries (bucket : Bucket) : OnlyCalls Call.Queries (reader.read bucket) :=
  (fetch_queries _ _).bind fun _ _ _ _ => .pure _

end Reader

/-! ## Writing -/

namespace WriteTask

/-- A task whose bucket cannot become a query, or whose statement is looked at. -/
def Safe : WriteTask → Prop
  | .remove bucket => bucket.isProjection = false
  | .writeRow bucket => bucket.rows ≠ []
  | .writeWhole _ | .refuse _ => True

variable {task : WriteTask} {writer : Writer}

/-- What is executed for a safe task is a change, and it has a condition where it needs one. -/
theorem plan_guarded {planner : Plan.Planner} {memo after : Catalog.Memo}
    {statement : Sql.Statement} (hsafe : task.Safe)
    (hplan : Succeeds (task.plan planner) memo statement after) : GuardedChange statement := by
  cases task with
  | remove bucket => exact Plan.Planner.build_guarded_of_not_projection hsafe hplan
  | writeRow bucket => exact Plan.Planner.build_guarded_of_rows hsafe hplan
  | writeWhole bucket =>
      obtain ⟨hbuild, hchanges⟩ := plan_writeWhole_succeeds hplan
      obtain ⟨gathered, later, -, hplans⟩ := Plan.Planner.build_plans hbuild
      exact hplans.guarded hchanges
  | refuse key => exact absurd hplan Succeeds.not_throw

theorem perform_changes (hsafe : task.Safe) : OnlyCalls Call.Changes (task.perform writer) := by
  refine (OnlyCalls.planning _).bind fun _ statement _ hplan => ?_
  have hchange : Call.Changes (.execute statement) :=
    plan_guarded hsafe (planning_succeeds hplan).1
  exact (OnlyCalls.record hchange _).bind fun _ _ _ _ => .pure _

theorem performAll_changes : ∀ {tasks : List WriteTask}, (∀ task ∈ tasks, task.Safe) →
    OnlyCalls Call.Changes (performAll writer tasks)
  | [], _ => .pure _
  | _ :: _, hsafe => by
      obtain ⟨hfirst, hrest⟩ := List.forall_mem_cons.mp hsafe
      exact (perform_changes hfirst).bind fun _ _ _ _ =>
        (performAll_changes hrest).bind fun _ _ _ _ => .pure _

end WriteTask

theorem withOnlyRow_rows (bucket : Bucket) (row : Record) :
    (withOnlyRow bucket row).rows = [row] := by
  have hothers : (bucket.elements.filter fun element => element.row?.isNone).filterMap
      ElementOf.row? = [] := by
    rw [List.filterMap_eq_nil_iff]
    intro element helement
    simpa using (List.mem_filter.mp helement).2
  rw [Bucket.rows, withOnlyRow, List.filterMap_append, hothers]
  rfl

/-- The deletion of an upsert asks for no data back. -/
theorem beaconTasks_safe {table : String} {beacon : Beacon} {task : WriteTask}
    (htask : task ∈ beaconTasks table beacon) : task.Safe := by
  cases beacon with
  | upsert expression =>
      rw [List.mem_singleton.mp htask]
      rfl
  | custom key value =>
      rw [beaconTasks] at htask
      split at htask
      · rw [List.mem_singleton.mp htask]
        trivial
      · exact absurd htask List.not_mem_nil

/-- A row that is written alone is still there. -/
theorem ownTasks_safe {bucket : Bucket} {task : WriteTask} (htask : task ∈ ownTasks bucket) :
    task.Safe := by
  rw [ownTasks] at htask
  split at htask
  · obtain ⟨row, -, rfl⟩ := List.mem_map.mp htask
    change (withOnlyRow bucket row).rows ≠ []
    rw [withOnlyRow_rows]
    exact List.cons_ne_nil row []
  · rw [List.mem_singleton.mp htask]
    trivial

theorem writeTasks_safe {bucket : Bucket} {task : WriteTask} (htask : task ∈ writeTasks bucket) :
    task.Safe := by
  rcases List.mem_append.mp htask with hbeacon | hown
  · obtain ⟨beacon, -, hbeacon⟩ := List.mem_flatMap.mp hbeacon
    exact beaconTasks_safe hbeacon
  · exact ownTasks_safe hown

theorem writeBuckets_changes (writer : Writer) (invoice : Invoice) :
    OnlyCalls Call.Changes (writeBuckets writer Registry.standard invoice) := by
  rw [writeBuckets_eq]
  refine WriteTask.performAll_changes fun task htask => ?_
  obtain ⟨bucket, -, htask⟩ := List.mem_flatMap.mp htask
  exact writeTasks_safe htask

/-- From every state and whatever the connection answers, reading an invoice sends queries only,
and writing one sends insertions, and updates and deletions that have a condition. -/
theorem readAll_queries_writeAll_changes (reader : Reader) (writer : Writer) (invoice : Invoice) :
    OnlyCalls Call.Queries (readAll reader invoice) ∧
      OnlyCalls Call.Changes (writeAll writer Registry.standard invoice) :=
  ⟨.transaction trivial trivial trivial (.mapM fun bucket _ => Reader.read_queries bucket),
    .transaction trivial trivial trivial (writeBuckets_changes writer invoice)⟩

end TreeQuery.Session
