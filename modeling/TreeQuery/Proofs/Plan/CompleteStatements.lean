import TreeQuery.Proofs.Plan.Insertions

/-!
# Complete statements

No dialect takes a query without a select item, an insertion without a column or a tuple, or an
update without an assignment.  Planning picks the kind of a statement by how many rows there are
and not by what is in them, so a request all of whose rows are without keys becomes a change that
is not complete, and no other request does.
-/

namespace TreeQuery

/-- A statement has all that its kind cannot be written without. -/
def Sql.Statement.Complete : Sql.Statement → Prop
  | select query => query.items ≠ []
  | insert change => change.columns ≠ [] ∧ change.rows ≠ []
  | update change => change.assignments ≠ []
  | delete _ => True

namespace Plan

open Catalog (Memo)
open Sql (Statement)

theorem rowColumns_ne_nil_iff (rows : List Record) :
    rowColumns rows ≠ [] ↔ ∃ row ∈ rows, row ≠ [] := by
  constructor
  · intro hsome
    obtain ⟨column, hcolumn⟩ := List.exists_mem_of_ne_nil _ hsome
    obtain ⟨row, hrow, hkey⟩ := (mem_rowColumns rows column).mp hcolumn
    exact ⟨row, hrow, fun hnone => by simp [hnone] at hkey⟩
  · rintro ⟨row, hrow, hsome⟩
    obtain ⟨field, hfield⟩ := List.exists_mem_of_ne_nil _ hsome
    exact List.ne_nil_of_mem
      ((mem_rowColumns rows field.1).mpr ⟨row, hrow, List.mem_map_of_mem hfield⟩)

/-- Extensions that leave a query something to select. -/
def KeepSelecting (extensions : List (String × Extension.ReadExtension)) : Prop :=
  ∀ entry ∈ extensions, ∀ beacon parts adjusted,
    entry.2.adjust beacon parts = .ok adjusted → parts.items ≠ [] → adjusted.items ≠ []

namespace Planner

variable {planner : Planner} {path : Path} {gathered : Gathered} {memo after : Memo}

theorem parts_items_ne_nil {parts : SelectParts} (hkeep : KeepSelecting planner.extensions)
    (hasks : gathered.columns ≠ [] ∨ gathered.total = true)
    (hrun : Succeeds (planner.parts path gathered) memo parts after) : parts.items ≠ [] := by
  obtain ⟨table, -, hadjust⟩ := parts_run hrun
  refine adjustParts_keeps (fun parts => parts.items ≠ []) hkeep hadjust ?_
  rcases hasks with hcolumns | htotal
  · exact List.append_ne_nil_of_left_ne_nil hcolumns _
  · simp [ownParts, htotal]

/-- A statement is complete exactly when the request has no rows or a row with a key. -/
theorem Plans.complete_iff {statement : Statement}
    (hplans : planner.Plans path gathered memo after statement)
    (hkeep : statement.kind = .select → KeepSelecting planner.extensions) :
    statement.Complete ↔ gathered.rows = [] ∨ ∃ row ∈ gathered.rows, row ≠ [] := by
  cases hplans with
  | select hasks hrows hparts =>
      exact iff_of_true (parts_items_ne_nil (hkeep rfl) hasks hparts) (.inl hrows)
  | delete hrows => exact iff_of_true trivial (.inl hrows)
  | insert hrows _ hinsert =>
      obtain ⟨table, _, -, rfl⟩ := insertion_succeeds hinsert
      rw [or_iff_right hrows, ← rowColumns_ne_nil_iff]
      exact and_iff_left (by simpa using hrows)
  | update hrows _ _ hupdate =>
      obtain ⟨table, _, -, rfl⟩ := update_succeeds hupdate
      simp [Statement.Complete, hrows]

/-- A bucket is planned as a complete statement exactly when it has no rows or a row with a key.
So every query and every deletion is complete, and what is not is an insertion or an update of
rows that say nothing. -/
theorem build_complete_iff {bucket : Bucket} {statement : Statement}
    (hrun : Succeeds (planner.build bucket) memo statement after)
    (hkeep : statement.kind = .select → KeepSelecting planner.extensions) :
    statement.Complete ↔ bucket.rows = [] ∨ ∃ row ∈ bucket.rows, row ≠ [] := by
  obtain ⟨gathered, middle, hgather, hplans⟩ := build_plans hrun
  rw [hplans.complete_iff hkeep, gather_rows hgather]

theorem build_complete_iff_mixedBooks :
    ∃ statement after, Succeeds (bookPlanner.build mixedBooks) {} statement after ∧
      (statement.kind = .select → KeepSelecting bookPlanner.extensions) ∧
      (statement.Complete ↔ mixedBooks.rows = [] ∨ ∃ row ∈ mixedBooks.rows, row ≠ []) := by
  have hbuild : ∃ statement after, Succeeds (bookPlanner.build mixedBooks) {} statement after :=
    ⟨_, _, rfl⟩
  obtain ⟨statement, after, hbuilt⟩ := hbuild
  have hkeep : KeepSelecting bookPlanner.extensions := nofun
  exact ⟨statement, after, hbuilt, fun _ => hkeep, build_complete_iff hbuilt fun _ => hkeep⟩

/-- A book of which nothing is said. -/
def blankBook : Bucket where
  name := "book"
  elements := [.item (.row [])]

/-- The same for the third book. -/
def blankThirdBook : Bucket where
  name := "book"
  elements := [.item (.row []),
    .clause [.clause ⟨"id", .compare .eq (.int 3)⟩]]

/-- Both are accepted, and neither the insertion nor the update is complete. -/
theorem blank_rows_incomplete :
    (∃ change after, Succeeds (bookPlanner.build blankBook) {} (.insert change) after ∧
      change.columns = [] ∧ ¬ (Statement.insert change).Complete) ∧
    ∃ change after, Succeeds (bookPlanner.build blankThirdBook) {} (.update change) after ∧
      change.assignments = [] ∧ ¬ (Statement.update change).Complete :=
  ⟨⟨_, _, rfl, rfl, fun hcomplete => hcomplete.1 rfl⟩,
    _, _, rfl, rfl, fun hcomplete => hcomplete rfl⟩

end Planner

end Plan

end TreeQuery
