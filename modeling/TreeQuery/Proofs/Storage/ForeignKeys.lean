import Mathlib.Data.List.Nodup
import Mathlib.Data.List.Pairwise
import Mathlib.Data.List.Permutation
import Mathlib.Data.String.Basic
import TreeQuery.Storage.Declaration

/-!
# Foreign keys read from a database

The rows a database keeps have no order of their own.  Sorted, they are those of the
declarations in the order of their creation: the columns as declared, the primary
key in its own order, and the foreign keys in the order of their declaration with
the columns of each in sequence.  This determines the tables that are read.

A key that leaves its target columns out refers to the target's primary key.  Each
of its columns is given the *first* column of that key, so the columns are matched
by position exactly when there is at most one of them.
-/

namespace TreeQuery.Storage

open List

/-! ## Sorting rows -/

section Sorting

variable {α : Type} {le : α → α → Bool} {rows sorted : List α}

/-- Rows in any order are sorted into the one order in which none may stand later. -/
theorem mergeSort_eq_of_perm (htrans : ∀ a b c, le a b → le b c → le a c)
    (htotal : ∀ a b, (le a b || le b a) = true) (hperm : rows ~ sorted)
    (hstrict : sorted.Pairwise fun earlier later => le later earlier = false) :
    rows.mergeSort le = sorted := by
  have hmerged : rows.mergeSort le ~ sorted := (mergeSort_perm rows le).trans hperm
  have hordered : sorted.Pairwise fun earlier later => le earlier later = true :=
    hstrict.imp fun {a b} hba => by simpa [hba] using htotal a b
  have hsymm : Std.Symm fun a b => ¬ (le a b = true ∧ le b a = true) :=
    ⟨fun _ _ h hand => h hand.symm⟩
  have hapart : sorted.Pairwise fun a b => ¬ (le a b = true ∧ le b a = true) :=
    hstrict.imp fun hba hand => by simp [hba] at hand
  apply @Perm.eq_of_pairwise _ (fun a b => le a b = true)
  · intro a b ha hb hab hba
    by_contra hne
    exact hapart.forall (hmerged.subset ha) hb hne ⟨hab, hba⟩
  · exact pairwise_mergeSort htrans htotal rows
  · exact hordered
  · exact hmerged

end Sorting

theorem pairwise_idxOf {names : List String} (hnodup : names.Nodup) :
    names.Pairwise fun earlier later => names.idxOf earlier < names.idxOf later := by
  rw [pairwise_iff_getElem]
  intro i j hi hj hij
  rw [hnodup.idxOf_getElem, hnodup.idxOf_getElem]
  exact hij

theorem ObjectRow.mergeSort_eq {rows sorted : List ObjectRow} (hperm : rows ~ sorted)
    (hstrict : sorted.Pairwise fun earlier later => earlier.rowid < later.rowid) :
    rows.mergeSort ObjectRow.precedes = sorted := by
  apply mergeSort_eq_of_perm _ _ hperm
  · exact hstrict.imp fun h => by simpa [precedes] using h
  · intro a b c
    simpa [precedes] using Nat.le_trans
  · intro a b
    simpa [precedes] using Nat.le_total a.rowid b.rowid

theorem ColumnRow.mergeSort_eq {rows sorted : List ColumnRow} (hperm : rows ~ sorted)
    (hstrict : sorted.Pairwise fun earlier later => earlier.place < later.place) :
    rows.mergeSort ColumnRow.precedes = sorted := by
  apply mergeSort_eq_of_perm _ _ hperm
  · exact hstrict.imp fun h => by simpa [precedes] using h
  · intro a b c
    simpa [precedes] using Nat.le_trans
  · intro a b
    simpa [precedes] using Nat.le_total a.place b.place

theorem ColumnRow.mergeSort_inKey {rows sorted : List ColumnRow} (hperm : rows ~ sorted)
    (hstrict : sorted.Pairwise fun earlier later => earlier.keyPosition < later.keyPosition) :
    rows.mergeSort ColumnRow.precedesInKey = sorted := by
  apply mergeSort_eq_of_perm _ _ hperm
  · exact hstrict.imp fun h => by simp [precedesInKey]; omega
  · intro a b c hab hbc
    simp only [precedesInKey, Bool.or_eq_true, decide_eq_true_eq, Bool.and_eq_true,
      beq_iff_eq] at hab hbc ⊢
    rcases hab with hab | ⟨hab, hnames⟩ <;> rcases hbc with hbc | ⟨hbc, hnames'⟩
    · left; omega
    · left; omega
    · left; omega
    · exact .inr ⟨hab.trans hbc, le_trans hnames hnames'⟩
  · intro a b
    simp only [precedesInKey, Bool.or_eq_true, decide_eq_true_eq, Bool.and_eq_true, beq_iff_eq]
    rcases Nat.lt_trichotomy a.keyPosition b.keyPosition with h | h | h
    · exact .inl (.inl h)
    · rcases le_total a.name b.name with hnames | hnames
      · exact .inl (.inr ⟨h, hnames⟩)
      · exact .inr (.inr ⟨h.symm, hnames⟩)
    · exact .inr (.inl h)

theorem KeyRow.mergeSort_eq {rows sorted : List KeyRow} (hperm : rows ~ sorted)
    (hstrict : sorted.Pairwise fun earlier later => later.number < earlier.number ∨
      later.number = earlier.number ∧ earlier.sequence < later.sequence) :
    rows.mergeSort KeyRow.precedes = sorted := by
  apply mergeSort_eq_of_perm _ _ hperm
  · exact hstrict.imp fun h => by simp [precedes]; omega
  · intro a b c
    simp [precedes]
    omega
  · intro a b
    simp [precedes]
    omega

/-! ## Recorded declarations -/

/-- A declaration that a database can keep: columns and key columns are distinct, and a
key names a target for each of its columns or for none. -/
structure Declaration.WellFormed (declaration : Declaration) : Prop where
  columns_nodup : declaration.columns.Nodup
  primaryKey_nodup : declaration.primaryKey.Nodup
  primaryKey_subset : declaration.primaryKey ⊆ declaration.columns
  targets : ∀ key ∈ declaration.keys,
    key.targetColumns = [] ∨ key.targetColumns.length = key.columns.length

namespace Master

/-- The database keeps the rows of a declaration, in any order. -/
structure Keeps (master : Master) (declaration : Declaration) : Prop where
  columns : master.columnRows declaration.name ~ declaration.columnRows
  keys : ∃ numbers : List Nat, numbers.Pairwise (· > ·) ∧
    numbers.length = declaration.keys.length ∧
    master.keyRows declaration.name ~ declaration.keyRows numbers

/-- The tables of the database are those declared, in this order. -/
structure Records (master : Master) (declarations : List Declaration) : Prop where
  created : ∃ rows : List ObjectRow,
    rows.Pairwise (fun earlier later => earlier.rowid < later.rowid) ∧
    rows.map ObjectRow.name = declarations.map Declaration.name ∧
    (master.objects.filter fun row => row.kind == "table") ~ rows
  distinct : (declarations.map Declaration.name).Nodup
  keeps : ∀ declaration ∈ declarations, master.Keeps declaration
  wellFormed : ∀ declaration ∈ declarations, declaration.WellFormed

end Master

/-- The declarations of the tables that are not the database's own. -/
def listed (declarations : List Declaration) : List Declaration :=
  declarations.filter fun declaration => !isReserved declaration.name

namespace KeyDeclaration

variable (key : KeyDeclaration)

/-- The keys from the columns to target columns, position by position. -/
def referencesTo (targets : List String) : List Catalog.Reference :=
  zipWith (fun column target => ⟨column, key.table, target⟩) key.columns targets

/-- The target columns as they are written, empty when they are left out. -/
def writtenTargets : List String :=
  if key.targetColumns = [] then replicate key.columns.length "" else key.targetColumns

theorem length_writtenTargets
    (htargets : key.targetColumns = [] ∨ key.targetColumns.length = key.columns.length) :
    key.writtenTargets.length = key.columns.length := by
  unfold writtenTargets
  split
  · exact length_replicate
  · exact htargets.resolve_left ‹_›

theorem getD_targetColumns {index : Nat} (hindex : index < key.columns.length) :
    key.targetColumns[index]?.getD "" = key.writtenTargets[index]?.getD "" := by
  unfold writtenTargets
  split
  case isTrue hnone => simp [hnone, hindex]
  case isFalse => rfl

theorem references_rows (number : Nat)
    (htargets : key.targetColumns = [] ∨ key.targetColumns.length = key.columns.length) :
    (key.rows number).map KeyRow.reference = key.referencesTo key.writtenTargets := by
  have hlength := key.length_writtenTargets htargets
  apply ext_getElem
  · simp [rows, referencesTo, hlength]
  · intro index hrows hreferences
    have hindex : index < key.columns.length := by simpa [rows] using hrows
    have hwritten : index < key.writtenTargets.length := hlength ▸ hindex
    have htarget := key.getD_targetColumns hindex
    rw [getElem?_eq_getElem hwritten, Option.getD_some] at htarget
    simp [rows, referencesTo, KeyRow.reference, htarget]

theorem map_resolve_referencesTo (tables : List Catalog.Table) (targets : List String) :
    (key.referencesTo targets).map (resolve tables) =
      key.referencesTo (targets.map fun target =>
        if target = "" then implicitTarget tables key.table else target) := by
  rw [referencesTo, referencesTo, map_zipWith, zipWith_map_right]
  congr 1
  funext column target
  unfold resolve
  by_cases htarget : target = "" <;> simp [htarget]

end KeyDeclaration

/-! ## Reading the rows back -/

namespace Declaration

variable {declaration : Declaration} {declarations : List Declaration} {numbers : List Nat}

theorem named?_of_mem (hdistinct : (declarations.map name).Nodup)
    (hmem : declaration ∈ declarations) :
    named? declarations declaration.name = some declaration := by
  rw [named?, find?_eq_some_iff_append]
  obtain ⟨before, after, hsplit⟩ := append_of_mem hmem
  refine ⟨by simp, before, after, hsplit, fun other hother => ?_⟩
  rw [hsplit, map_append, map_cons, nodup_append] at hdistinct
  have hne := hdistinct.2.2 other.name (mem_map_of_mem hother) declaration.name mem_cons_self
  simpa using hne

theorem columnRows_pairwise (hnodup : declaration.columns.Nodup) :
    declaration.columnRows.Pairwise fun earlier later => earlier.place < later.place := by
  rw [columnRows, pairwise_map]
  exact pairwise_idxOf hnodup

/-- The rows of the primary key are those of its columns, in any order. -/
theorem filter_columnRows (hformed : declaration.WellFormed) :
    declaration.columnRows.filter (fun row => 0 < row.keyPosition) ~
      declaration.primaryKey.map declaration.columnRow := by
  have hparts : declaration.columns.filter (declaration.primaryKey.contains ·) ~
      declaration.primaryKey := by
    rw [perm_ext_iff_of_nodup (hformed.columns_nodup.filter _) hformed.primaryKey_nodup]
    intro column
    simp only [mem_filter, contains_iff_mem]
    exact and_iff_right_of_imp (hformed.primaryKey_subset ·)
  rw [columnRows, filter_map]
  refine Perm.trans (Perm.of_eq ?_) (hparts.map _)
  congr 1
  apply filter_congr
  intro column _
  by_cases hcolumn : column ∈ declaration.primaryKey <;> simp [columnRow, hcolumn]

theorem keyPositions_pairwise (hnodup : declaration.primaryKey.Nodup) :
    (declaration.primaryKey.map declaration.columnRow).Pairwise
      fun earlier later => earlier.keyPosition < later.keyPosition := by
  rw [pairwise_map]
  refine (pairwise_idxOf hnodup).imp_of_mem fun hearlier hlater hlt => ?_
  simpa [columnRow, hearlier, hlater] using hlt

theorem keyRows_pairwise (hnumbers : numbers.Pairwise (· > ·))
    (hlength : numbers.length = declaration.keys.length) :
    (declaration.keyRows numbers).Pairwise fun earlier later => later.number < earlier.number ∨
      later.number = earlier.number ∧ earlier.sequence < later.sequence := by
  rw [keyRows, pairwise_flatMap]
  constructor
  · rintro ⟨key, number⟩ -
    simp only [KeyDeclaration.rows, pairwise_iff_getElem, getElem_map, getElem_zipIdx]
    intro i j hi hj hij
    exact .inr ⟨trivial, by omega⟩
  · have hsnd : (declaration.keys.zip numbers).map Prod.snd = numbers :=
      map_snd_zip (hlength.le)
    rw [← hsnd, pairwise_map] at hnumbers
    refine hnumbers.imp ?_
    rintro ⟨key, number⟩ ⟨key', number'⟩ hlt row hrow row' hrow'
    simp only [KeyDeclaration.rows, mem_map] at hrow hrow'
    obtain ⟨_, -, rfl⟩ := hrow
    obtain ⟨_, -, rfl⟩ := hrow'
    exact .inl hlt

/-- The keys as they are written, in the order of their declaration. -/
def writtenReferences (declaration : Declaration) : List Catalog.Reference :=
  declaration.keys.flatMap fun key => key.referencesTo key.writtenTargets

theorem references_keyRows (hlength : numbers.length = declaration.keys.length)
    (hformed : declaration.WellFormed) :
    (declaration.keyRows numbers).map KeyRow.reference = declaration.writtenReferences := by
  have hfst : (declaration.keys.zip numbers).map Prod.fst = declaration.keys :=
    map_fst_zip hlength.ge
  rw [keyRows, map_flatMap, writtenReferences]
  conv_rhs => rw [← hfst, flatMap_map]
  apply flatMap_congr
  rintro ⟨key, number⟩ hmem
  exact key.references_rows number (hformed.targets key (of_mem_zip hmem).1)

/-- The rows of distinct declarations record them. -/
theorem masterOf_records (hdistinct : (declarations.map name).Nodup)
    (hformed : ∀ declaration ∈ declarations, declaration.WellFormed) :
    (masterOf declarations).Records declarations where
  created := by
    refine ⟨(masterOf declarations).objects, ?_, ?_, ?_⟩
    · simp only [masterOf, pairwise_iff_getElem, getElem_map, getElem_zipIdx]
      intro i j hi hj hij
      omega
    · simp only [masterOf, map_map]
      conv_rhs => rw [← zipIdx_map_fst 0 declarations, map_map]
      rfl
    · apply Perm.of_eq
      rw [filter_eq_self]
      intro row hrow
      obtain ⟨_, -, rfl⟩ := mem_map.mp hrow
      rfl
  distinct := hdistinct
  keeps declaration hmem := by
    have hnamed := named?_of_mem hdistinct hmem
    constructor
    · simp [masterOf, hnamed]
    · refine ⟨(range declaration.keys.length).reverse, ?_, by simp, by simp [masterOf, hnamed]⟩
      rw [pairwise_reverse]
      exact pairwise_lt_range
  wellFormed := hformed

/-- The table of a declaration, with its keys as they are written. -/
def written (declaration : Declaration) : Catalog.Table where
  name := declaration.name
  columns := declaration.columns
  primaryKey := declaration.primaryKey
  references := declaration.writtenReferences

end Declaration

namespace Master

variable {master : Master} {declarations : List Declaration} {declaration : Declaration}

theorem Keeps.columnsOf_eq (hkeeps : master.Keeps declaration)
    (hformed : declaration.WellFormed) :
    master.columnsOf declaration.name = declaration.columnRows :=
  ColumnRow.mergeSort_eq hkeeps.columns (declaration.columnRows_pairwise hformed.columns_nodup)

theorem Keeps.table_eq (hkeeps : master.Keeps declaration) (hformed : declaration.WellFormed) :
    master.table declaration.name = declaration.written := by
  have hcolumns := hkeeps.columnsOf_eq hformed
  have hkey : master.primaryKeyOf declaration.name = declaration.primaryKey := by
    have hparts := ColumnRow.mergeSort_inKey (declaration.filter_columnRows hformed)
      (declaration.keyPositions_pairwise hformed.primaryKey_nodup)
    rw [primaryKeyOf, hcolumns, hparts]
    simp [Declaration.columnRow, Function.comp_def]
  have hreferences : master.referencesOf declaration.name = declaration.writtenReferences := by
    obtain ⟨numbers, hnumbers, hlength, hrows⟩ := hkeeps.keys
    rw [referencesOf, KeyRow.mergeSort_eq hrows (declaration.keyRows_pairwise hnumbers hlength),
      declaration.references_keyRows hlength hformed]
  rw [table, hcolumns, hkey, hreferences, Declaration.written]
  simp [Declaration.columnRows, Declaration.columnRow, Function.comp_def]

/-- The names of the listed tables come in the order of their declarations. -/
theorem Records.tableNames_eq (hrecords : master.Records declarations) :
    master.tableNames = (listed declarations).map Declaration.name := by
  obtain ⟨rows, hordered, hnames, hperm⟩ := hrecords.created
  have hlisted : master.objects.filter ObjectRow.isListed ~
      rows.filter fun row => !isReserved row.name := by
    have hsplit : master.objects.filter ObjectRow.isListed =
        (master.objects.filter fun row => row.kind == "table").filter
          fun row => !isReserved row.name := by
      rw [filter_filter]
      apply filter_congr
      intro row _
      exact Bool.and_comm _ _
    rw [hsplit]
    exact hperm.filter _
  calc master.tableNames
      = (rows.filter fun row => !isReserved row.name).map ObjectRow.name := by
        rw [tableNames, ObjectRow.mergeSort_eq hlisted (hordered.filter _)]
    _ = (rows.map ObjectRow.name).filter fun name => !isReserved name := by
        rw [filter_map]
        rfl
    _ = (listed declarations).map Declaration.name := by
        rw [hnames, filter_map]
        rfl

theorem Records.tables_eq (hrecords : master.Records declarations) :
    master.tables = resolveAll ((listed declarations).map Declaration.written) := by
  rw [tables, hrecords.tableNames_eq, map_map]
  congr 1
  apply map_congr_left
  intro declaration hlisted
  have hmem : declaration ∈ declarations := (mem_filter.mp hlisted).1
  exact (hrecords.keeps declaration hmem).table_eq (hrecords.wellFormed declaration hmem)

end Master

/-- The tables of declarations are read back from the rows that are kept of them. -/
theorem Declaration.tables_eq {declarations : List Declaration}
    (hdistinct : ((declarations.map kept).map name).Nodup)
    (hformed : ∀ declaration ∈ declarations.map kept, declaration.WellFormed) :
    tables declarations = resolveAll ((listed (declarations.map kept)).map written) :=
  (masterOf_records hdistinct hformed).tables_eq

/-! ## Resolved targets -/

/-- The first column of the primary key of the table of a name, or the column every
table has when it has no primary key or is not listed. -/
def leadingColumn (declarations : List Declaration) (table : String) : String :=
  match Declaration.named? declarations table with
  | none => rowColumn
  | some target => target.primaryKey.headD rowColumn

theorem implicitTarget_written (declarations : List Declaration) (table : String) :
    implicitTarget (declarations.map Declaration.written) table =
      leadingColumn declarations table := by
  rw [implicitTarget, leadingColumn, Declaration.named?, find?_map]
  have hname : ((fun table' : Catalog.Table => table'.name == table) ∘ Declaration.written) =
      fun declaration => declaration.name == table := rfl
  rw [hname]
  cases declarations.find? fun declaration => declaration.name == table <;> rfl

theorem leadingColumn_of_mem {declarations : List Declaration} {target : Declaration}
    (hdistinct : (declarations.map Declaration.name).Nodup) (hmem : target ∈ declarations) :
    leadingColumn declarations target.name = target.primaryKey.headD rowColumn := by
  rw [leadingColumn, Declaration.named?_of_mem hdistinct hmem]

namespace KeyDeclaration

variable (key : KeyDeclaration) (declarations : List Declaration)

/-- The target columns a key is given: the leading column of its table for each column
whose target is left out or empty. -/
def resolvedTargets : List String :=
  match key.targetColumns with
  | [] => replicate key.columns.length (leadingColumn declarations key.table)
  | targets => targets.map fun target =>
      if target = "" then leadingColumn declarations key.table else target

theorem map_resolve_written :
    (key.referencesTo key.writtenTargets).map
        (resolve (declarations.map Declaration.written)) =
      key.referencesTo (key.resolvedTargets declarations) := by
  rw [map_resolve_referencesTo, implicitTarget_written, writtenTargets, resolvedTargets]
  cases key.targetColumns <;> simp

/-- Targets that are written out are kept. -/
theorem resolvedTargets_of_explicit (hexplicit : key.targetColumns ≠ [])
    (hnamed : "" ∉ key.targetColumns) :
    key.resolvedTargets declarations = key.targetColumns := by
  unfold resolvedTargets
  split
  case h_1 hnone => exact absurd hnone hexplicit
  case h_2 =>
    conv_rhs => rw [← map_id key.targetColumns]
    apply map_congr_left
    intro target hmem
    have hwritten : target ≠ "" := fun hempty => hnamed (hempty ▸ hmem)
    simp [hwritten]

/-- Each column is matched with the first column of the other key, which is that at its
own position for the first column alone. -/
theorem replicate_head_eq_iff {targets : List String} {count : Nat} (fallback : String)
    (hnodup : targets.Nodup) (hlength : count = targets.length) :
    replicate count (targets.headD fallback) = targets ↔ count ≤ 1 := by
  subst hlength
  match targets, hnodup with
  | [], _ => simp
  | [target], _ => simp
  | first :: second :: rest, hnodup =>
    have hne : first ≠ second := by
      intro hsame
      simp [hsame] at hnodup
    simp [replicate_succ, hne]

theorem targets_referencesTo {targets : List String}
    (hlength : targets.length = key.columns.length) :
    (key.referencesTo targets).map Catalog.Reference.targetColumn = targets := by
  apply ext_getElem
  · simp [referencesTo, hlength]
  · simp [referencesTo]

theorem referencesTo_inj {left right : List String} (hleft : left.length = key.columns.length)
    (hright : right.length = key.columns.length) :
    key.referencesTo left = key.referencesTo right ↔ left = right := by
  refine ⟨fun hsame => ?_, fun hsame => hsame ▸ rfl⟩
  calc left
      = (key.referencesTo left).map Catalog.Reference.targetColumn :=
        (key.targets_referencesTo hleft).symm
    _ = (key.referencesTo right).map Catalog.Reference.targetColumn := by rw [hsame]
    _ = right := key.targets_referencesTo hright

/-- A key without targets is matched by position exactly if it has one column at most. -/
theorem resolved_positional_iff {target : Declaration} (himplicit : key.targetColumns = [])
    (hdistinct : (declarations.map Declaration.name).Nodup) (htarget : target ∈ declarations)
    (hnodup : target.primaryKey.Nodup) (hname : target.name = key.table)
    (hlength : key.columns.length = target.primaryKey.length) :
    key.referencesTo (key.resolvedTargets declarations) = key.referencesTo target.primaryKey ↔
      key.columns.length ≤ 1 := by
  have hresolved : key.resolvedTargets declarations =
      replicate key.columns.length (target.primaryKey.headD rowColumn) := by
    rw [resolvedTargets, himplicit, ← hname, leadingColumn_of_mem hdistinct htarget]
  rw [key.referencesTo_inj _ hlength.symm, hresolved]
  · exact replicate_head_eq_iff rowColumn hnodup hlength
  · rw [hresolved, length_replicate]

end KeyDeclaration

namespace Master

variable {master : Master} {declarations : List Declaration}

/-- The tables read from a database are those declared and listed, in the order of their
creation, each with its columns and its primary key.  Their keys come in the order of
their declaration, the columns of each in sequence, and keep the target columns that
are written out.  A key without them is matched with the primary key of its target,
position by position, exactly if it has one column: every further column is matched with
the first of the primary key as well. -/
theorem Records.tables_positional_iff (hrecords : master.Records declarations) :
    Forall₂ (fun table declaration =>
        table.name = declaration.name ∧ table.columns = declaration.columns ∧
        table.primaryKey = declaration.primaryKey ∧
        table.references = declaration.keys.flatMap fun key =>
          key.referencesTo (key.resolvedTargets (listed declarations)))
      master.tables (listed declarations) ∧
    ∀ declaration ∈ listed declarations, ∀ key ∈ declaration.keys,
      (key.targetColumns ≠ [] → "" ∉ key.targetColumns →
        key.resolvedTargets (listed declarations) = key.targetColumns) ∧
      (key.targetColumns = [] → ∀ target ∈ listed declarations, target.name = key.table →
        key.columns.length = target.primaryKey.length →
        (key.referencesTo (key.resolvedTargets (listed declarations)) =
          key.referencesTo target.primaryKey ↔ key.columns.length ≤ 1)) := by
  constructor
  · rw [hrecords.tables_eq, resolveAll, map_map, forall₂_map_left_iff, forall₂_same]
    intro declaration _
    refine ⟨rfl, rfl, rfl, ?_⟩
    simp only [Function.comp_apply, Declaration.written, Declaration.writtenReferences,
      map_flatMap]
    apply flatMap_congr
    intro key _
    exact key.map_resolve_written (listed declarations)
  · intro declaration _ key _
    refine ⟨key.resolvedTargets_of_explicit _, fun himplicit target htarget hname hlength => ?_⟩
    have hdistinct : ((listed declarations).map Declaration.name).Nodup :=
      hrecords.distinct.sublist (filter_sublist.map _)
    have hformed := hrecords.wellFormed target (mem_filter.mp htarget).1
    exact key.resolved_positional_iff _ himplicit hdistinct htarget hformed.primaryKey_nodup
      hname hlength

/-! ### A key over two columns -/

/-- Seats, each in a row of a hall, and tickets for them. -/
def theatre : List Declaration :=
  [{ name := "seat", columns := ["hall", "place"], primaryKey := ["hall", "place"] },
    { name := "ticket", columns := ["id", "in_hall", "at_place"], primaryKey := ["id"],
      keys := [{ columns := ["in_hall", "at_place"], table := "seat" }] }]

/-- The rows kept of the theatre, each list with the last row first. -/
def theatreMaster : Master where
  objects := [⟨3, "table", "ticket"⟩, ⟨2, "index", "sqlite_autoindex_seat_1"⟩,
    ⟨1, "table", "seat"⟩]
  columnRows
    | "seat" => [⟨1, "place", 2⟩, ⟨0, "hall", 1⟩]
    | "ticket" => [⟨2, "at_place", 0⟩, ⟨1, "in_hall", 0⟩, ⟨0, "id", 1⟩]
    | _ => []
  keyRows
    | "ticket" => [⟨0, 1, "seat", "at_place", none⟩, ⟨0, 0, "seat", "in_hall", none⟩]
    | _ => []

theorem theatreMaster_records : theatreMaster.Records theatre where
  created := ⟨[⟨1, "table", "seat"⟩, ⟨3, "table", "ticket"⟩], by decide, by decide, by decide⟩
  distinct := by decide
  keeps := by
    simp only [theatre, forall_mem_cons, not_mem_nil, IsEmpty.forall_iff, implies_true, and_true]
    exact ⟨⟨by decide, [], by decide, rfl, by decide⟩, ⟨by decide, [0], by decide, rfl, by decide⟩⟩
  wellFormed := by
    simp only [theatre, forall_mem_cons, not_mem_nil, IsEmpty.forall_iff, implies_true, and_true]
    exact ⟨⟨by decide, by decide, by decide, by decide⟩, ⟨by decide, by decide, by decide, by decide⟩⟩

/-- Both columns of the key are matched with the first column of the other primary key. -/
theorem theatreMaster_repeats_hall :
    theatreMaster.Records theatre ∧
      theatreMaster.tables.flatMap Catalog.Table.references =
        [⟨"in_hall", "seat", "hall"⟩, ⟨"at_place", "seat", "hall"⟩] ∧
      (⟨"at_place", "seat", "place"⟩ : Catalog.Reference) ∉
        theatreMaster.tables.flatMap Catalog.Table.references := by
  have hreferences : theatreMaster.tables.flatMap Catalog.Table.references =
      [⟨"in_hall", "seat", "hall"⟩, ⟨"at_place", "seat", "hall"⟩] := by cbv
  refine ⟨theatreMaster_records, hreferences, ?_⟩
  rw [hreferences]
  decide

theorem tables_positional_iff_theatre :
    theatreMaster.Records theatre ∧
      ∃ declaration ∈ listed theatre, ∃ key ∈ declaration.keys, key.targetColumns = [] ∧
        ∃ target ∈ listed theatre, target.name = key.table ∧
          key.columns.length = target.primaryKey.length ∧
          key.referencesTo (key.resolvedTargets (listed theatre)) ≠
            key.referencesTo target.primaryKey := by
  refine ⟨theatreMaster_records, theatre[1], by decide, _, mem_cons_self, rfl, theatre[0],
    by decide, rfl, rfl, ?_⟩
  have hkey := (theatreMaster_records.tables_positional_iff.2 theatre[1] (by decide) _
    mem_cons_self).2 rfl theatre[0] (by decide) rfl rfl
  exact fun hsame => absurd (hkey.mp hsame) (by decide)

end Master

end TreeQuery.Storage
