import TreeQuery.Proofs.FirstOccurrences
import TreeQuery.Proofs.Plan.Statements

/-!
# Insertions

The rows of an insertion need not have the same keys.  Its columns are the keys of all rows, each
once, those of the first row before those that come with the second one, and so on; those that come
with one row are in their own order.  Each row becomes one tuple over these columns, which is null
wherever the row has no value.
-/

namespace TreeQuery.Plan

variable {rows : List Record} {row : Record} {column : String} {value : Json}

/-! ## Columns -/

/-- The index of the first row that has a column. -/
def firstRow (rows : List Record) (column : String) : Nat :=
  rows.findIdx fun row => (row.map Prod.fst).contains column

/-- The keys of some rows, each once, by the first row that has them and then by name. -/
structure UnionOfKeys (rows : List Record) (columns : List String) : Prop where
  nodup : columns.Nodup
  mem_iff : ∀ column, column ∈ columns ↔ ∃ row ∈ rows, column ∈ row.map Prod.fst
  order : columns.Pairwise fun first second =>
    firstRow rows first < firstRow rows second ∨
      firstRow rows first = firstRow rows second ∧ first < second

/-- The columns are the first occurrences of the keys. -/
theorem rowColumns_eq (rows : List Record) :
    rowColumns rows = (rows.flatMap fun row => row.map Prod.fst).eraseDups := by
  rw [← foldl_eraseDups, List.foldl_flatMap, rowColumns]
  simp only [List.foldl_map]

theorem mem_rowColumns (rows : List Record) (column : String) :
    column ∈ rowColumns rows ↔ ∃ row ∈ rows, column ∈ row.map Prod.fst := by
  rw [rowColumns_eq, List.mem_eraseDups, List.mem_flatMap]

theorem firstRow_concat_of_mem (hcolumn : column ∈ rowColumns rows) (row : Record) :
    firstRow (rows ++ [row]) column = firstRow rows column ∧
      firstRow rows column < rows.length := by
  obtain ⟨earlier, hearlier, hkey⟩ := (mem_rowColumns rows column).mp hcolumn
  have hlt : firstRow rows column < rows.length :=
    List.findIdx_lt_length_of_exists ⟨earlier, hearlier, List.contains_iff_mem.mpr hkey⟩
  exact ⟨List.findIdx_append.trans (if_pos hlt), hlt⟩

theorem firstRow_concat_of_not_mem (hcolumn : column ∉ rowColumns rows)
    (hkey : column ∈ row.map Prod.fst) : firstRow (rows ++ [row]) column = rows.length := by
  have hnone : ¬ rows.findIdx (fun row => (row.map Prod.fst).contains column) < rows.length := by
    rw [List.findIdx_lt_length]
    rintro ⟨earlier, hearlier, hearlierKey⟩
    exact hcolumn ((mem_rowColumns rows column).mpr
      ⟨earlier, hearlier, List.contains_iff_mem.mp hearlierKey⟩)
  rw [firstRow, List.findIdx_append, if_neg hnone, List.findIdx_cons,
    List.contains_iff_mem.mpr hkey]
  exact Nat.zero_add _

/-- A further row brings those of its keys that are new, in their own order. -/
theorem rowColumns_concat (rows : List Record) (row : Record) :
    ∃ new : List String, rowColumns (rows ++ [row]) = rowColumns rows ++ new ∧
      new.Sublist (row.map Prod.fst) ∧ ∀ column ∈ new, column ∉ rowColumns rows := by
  refine ⟨((row.map Prod.fst).removeAll (rows.flatMap fun row => row.map Prod.fst)).eraseDups,
    ?_, (eraseDups_sublist _).trans List.filter_sublist, fun column hnew => ?_⟩
  · rw [rowColumns_eq, rowColumns_eq, List.flatMap_append, List.eraseDups_append,
      List.flatMap_singleton]
  · rw [List.mem_eraseDups, List.removeAll, List.mem_filter] at hnew
    rw [rowColumns_eq, List.mem_eraseDups]
    simpa using hnew.2

theorem rowColumns_order (hrows : ∀ row ∈ rows, (row.map Prod.fst).Pairwise (· < ·)) :
    (rowColumns rows).Pairwise fun first second =>
      firstRow rows first < firstRow rows second ∨
        firstRow rows first = firstRow rows second ∧ first < second := by
  induction rows using List.reverseRecOn with
  | nil => exact List.Pairwise.nil
  | append_singleton rows row ih =>
      obtain ⟨hearlier, hrow⟩ := List.forall_mem_append.mp hrows
      obtain ⟨new, hcolumns, hsublist, hnew⟩ := rowColumns_concat rows row
      have hold {column} (hcolumn : column ∈ rowColumns rows) :=
        firstRow_concat_of_mem hcolumn row
      have hlast {column} (hcolumn : column ∈ new) :=
        firstRow_concat_of_not_mem (hnew column hcolumn) (hsublist.subset hcolumn)
      -- what the last row brings has it as its first row, and all else has an earlier one
      rw [hcolumns, List.pairwise_append]
      refine ⟨?_, ?_, fun first hfirst second hsecond => .inl ?_⟩
      · refine (ih hearlier).imp_of_mem fun {first second} hfirst hsecond hbefore => ?_
        rwa [(hold hfirst).1, (hold hsecond).1]
      · have hordered := (List.forall_mem_singleton.mp hrow).sublist hsublist
        refine hordered.imp_of_mem fun {first second} hfirst hsecond hlt => .inr ⟨?_, hlt⟩
        rw [hlast hfirst, hlast hsecond]
      · rw [(hold hfirst).1, hlast hsecond]
        exact (hold hfirst).2

/-! ## Tuples -/

/-- What a row puts under a column. -/
inductive Fills (row : Record) (column : String) : Sql.Expr → Prop
  | value {value : Json} (hvalue : (column, value) ∈ row) :
      Fills row column (.literal (.ofJson value))
  | null (hmissing : column ∉ row.map Prod.fst) : Fills row column (.literal .null)

theorem fills_cell (row : Record) (column : String) : Fills row column (cell row column) := by
  rw [cell]
  cases hvalue : row.get? column with
  | some value =>
      obtain ⟨before, behind, rfl, -⟩ := List.lookup_eq_some_iff.mp hvalue
      exact .value (List.mem_append_right _ List.mem_cons_self)
  | none =>
      refine .null fun hkey => ?_
      obtain ⟨field, hfield, rfl⟩ := List.mem_map.mp hkey
      have hmissing := List.lookup_eq_none_iff.mp hvalue field hfield
      simp at hmissing

namespace Planner

/-- An insertion has the keys of its rows as columns, and one tuple for each row that holds the
row's value under each column, or null where the row has none. -/
theorem build_insert {planner : Planner} {bucket : Bucket} {change : Sql.Insert}
    {memo after : Catalog.Memo}
    (hrows : ∀ row ∈ bucket.rows, (row.map Prod.fst).Pairwise (· < ·))
    (hrun : Succeeds (planner.build bucket) memo (.insert change) after) :
    UnionOfKeys bucket.rows change.columns ∧
      List.Forall₂ (fun row tuple => List.Forall₂ (Fills row) change.columns tuple)
        bucket.rows change.rows := by
  obtain ⟨gathered, middle, hgather, hplans⟩ := build_plans hrun
  cases hplans with
  | insert _ _ hinsert =>
      obtain ⟨table, _, -, rfl⟩ := insertion_succeeds hinsert
      rw [gather_rows hgather]
      refine ⟨⟨?_, mem_rowColumns _, rowColumns_order hrows⟩, ?_⟩
      · rw [rowColumns_eq]
        exact nodup_eraseDups _
      · rw [List.forall₂_map_right_iff, List.forall₂_same]
        intro row hrow
        rw [List.forall₂_map_right_iff, List.forall₂_same]
        exact fun column hcolumn => fills_cell row column

/-- Three books, of which one has no known author, one no known year, and one nothing at all. -/
def mixedBooks : Bucket where
  name := "book"
  elements :=
    [.item (.row [("title", .string "Emma"), ("year", .int 1815)]),
      .item (.row [("author", .string "Anonymous"), ("title", .string "Beowulf")]),
      .item (.row [])]

/-- A planner of the books' table. -/
def bookPlanner : Planner where
  schema :=
    { tables := [{ name := "book", columns := ["id", "author", "title", "year"] }]
      graph := { tables := ["book"] }
      junctions := [] }

theorem build_insert_mixedBooks :
    (∀ row ∈ mixedBooks.rows, (row.map Prod.fst).Pairwise (· < ·)) ∧
      ∃ change after, Succeeds (bookPlanner.build mixedBooks) {} (.insert change) after ∧
        change.columns = ["title", "year", "author"] ∧
        change.rows =
          [[.literal (.string "Emma"), .literal (.int 1815), .literal .null],
            [.literal (.string "Beowulf"), .literal .null, .literal (.string "Anonymous")],
            [.literal .null, .literal .null, .literal .null]] ∧
        UnionOfKeys mixedBooks.rows change.columns ∧
        List.Forall₂ (fun row tuple => List.Forall₂ (Fills row) change.columns tuple)
          mixedBooks.rows change.rows := by
  have hrows : ∀ row ∈ mixedBooks.rows, (row.map Prod.fst).Pairwise (· < ·) := by
    decide
  have hbuild : ∃ change after,
      Succeeds (bookPlanner.build mixedBooks) {} (.insert change) after ∧
        change.columns = ["title", "year", "author"] ∧
        change.rows =
          [[.literal (.string "Emma"), .literal (.int 1815), .literal .null],
            [.literal (.string "Beowulf"), .literal .null, .literal (.string "Anonymous")],
            [.literal .null, .literal .null, .literal .null]] :=
    ⟨_, _, rfl, rfl, rfl⟩
  obtain ⟨change, after, hbuilt, hcolumns, htuples⟩ := hbuild
  exact ⟨hrows, change, after, hbuilt, hcolumns, htuples, build_insert hrows hbuilt⟩

end Planner

end TreeQuery.Plan
