import TreeQuery.Catalog.Error
import TreeQuery.Catalog.Table

/-!
# The graph of foreign keys

Tables are the nodes and foreign keys the edges from their owner to the table
they reference.  Both keep the order in which they were added, which decides
what "the first key" means.
-/

namespace TreeQuery.Catalog

/-- Tables and the foreign keys between them, in the order of addition. -/
structure KeyGraph where
  tables : List String := []
  foreignKeys : List ForeignKey := []
  deriving DecidableEq

namespace KeyGraph

/-- Whether a table was added. -/
def contains (graph : KeyGraph) (table : String) : Bool :=
  graph.tables.contains table

/-- Adds a table; a table that is there stays where it is. -/
def addTable (graph : KeyGraph) (table : String) : KeyGraph :=
  if graph.contains table then graph else { graph with tables := graph.tables ++ [table] }

/-- The keys a table owns. -/
def outgoing (graph : KeyGraph) (table : String) : List ForeignKey :=
  graph.foreignKeys.filter fun key => key.table == table

/-- Adds a key between two tables that are there; a key that is there stays
where it is. -/
def addForeignKey (graph : KeyGraph) (key : ForeignKey) : Except SchemaError KeyGraph :=
  if !graph.contains key.table then .error (.unknownTable key.table)
  else if !graph.contains key.targetTable then
    .error (.danglingForeignKey key.table key.column key.targetTable)
  else if graph.foreignKeys.contains key then .ok graph
  else .ok { graph with foreignKeys := graph.foreignKeys ++ [key] }

variable {graph next : KeyGraph} {key : ForeignKey}

theorem addForeignKey_eq (graph : KeyGraph) (key : ForeignKey) :
    graph.addForeignKey key =
      if key.table ∈ graph.tables then
        if key.targetTable ∈ graph.tables then
          .ok (if key ∈ graph.foreignKeys then graph
            else { graph with foreignKeys := graph.foreignKeys ++ [key] })
        else .error (.danglingForeignKey key.table key.column key.targetTable)
      else .error (.unknownTable key.table) := by
  simp only [addForeignKey, contains, Bool.not_eq_true', List.contains_eq_mem,
    decide_eq_false_iff_not, decide_eq_true_eq, ite_not]
  split
  · split
    · split <;> rfl
    · rfl
  · rfl

/-- A key is taken just where both of its tables are there. -/
theorem exists_addForeignKey_iff :
    (∃ next, graph.addForeignKey key = .ok next) ↔
      key.table ∈ graph.tables ∧ key.targetTable ∈ graph.tables := by
  rw [addForeignKey_eq]
  split
  · next howner =>
      split
      · next htarget => exact iff_of_true ⟨_, rfl⟩ ⟨howner, htarget⟩
      · next htarget => exact iff_of_false (by simp) fun hends => htarget hends.2
  · next howner => exact iff_of_false (by simp) fun hends => howner hends.1

/-- What comes of a key that is taken. -/
theorem addForeignKey_ok (hadd : graph.addForeignKey key = .ok next) :
    key.table ∈ graph.tables ∧ key.targetTable ∈ graph.tables ∧
      next = if key ∈ graph.foreignKeys then graph
        else { graph with foreignKeys := graph.foreignKeys ++ [key] } := by
  have hends := exists_addForeignKey_iff.mp ⟨next, hadd⟩
  rw [addForeignKey_eq, if_pos hends.1, if_pos hends.2] at hadd
  exact ⟨hends.1, hends.2, (Except.ok.inj hadd).symm⟩

theorem addForeignKey_tables (hadd : graph.addForeignKey key = .ok next) :
    next.tables = graph.tables := by
  obtain ⟨-, -, rfl⟩ := addForeignKey_ok hadd
  split <;> rfl

end KeyGraph

end TreeQuery.Catalog
