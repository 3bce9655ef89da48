import TreeQuery.Proofs.Catalog.DeterminedLinks
import TreeQuery.Proofs.Catalog.GraphAdditions

/-!
# The tables of a built schema

A schema can be built where both tables of every key and the table of every junction are declared.
It has the declared tables, and each lists its own columns, its primary key, the columns of its
keys, and the columns that keys reference, and no others.
-/

namespace TreeQuery.Catalog

variable {declarations : Declarations} {schema : Schema} {names : List String} {name : String}

/-! ## What can be built -/

/-- Where each step succeeds just for good entries, all steps succeed just where all entries
are good. -/
theorem exists_foldlM_iff {ε α β : Type} (kind : β → Prop) (good : α → Prop)
    {step : β → α → Except ε β}
    (hgood : ∀ {state entry}, kind state → ((∃ next, step state entry = .ok next) ↔ good entry))
    (hkeeps : ∀ {state entry next}, kind state → step state entry = .ok next → kind next)
    (entries : List α) {start : β} (hstart : kind start) :
    (∃ finish, entries.foldlM step start = .ok finish) ↔ ∀ entry ∈ entries, good entry := by
  induction entries generalizing start with
  | nil => exact iff_of_true ⟨start, rfl⟩ (List.forall_mem_nil _)
  | cons entry rest ih =>
      rw [List.foldlM_cons, List.forall_mem_cons, ← hgood hstart]
      constructor
      · rintro ⟨finish, hrun⟩
        obtain ⟨middle, hentry, hrest⟩ := bind_ok_iff.mp hrun
        exact ⟨⟨middle, hentry⟩, (ih (hkeeps hstart hentry)).mp ⟨finish, hrest⟩⟩
      · rintro ⟨⟨middle, hentry⟩, hrest⟩
        obtain ⟨finish, hrun⟩ := (ih (hkeeps hstart hentry)).mpr hrest
        exact ⟨finish, bind_ok_iff.mpr ⟨middle, hentry, hrun⟩⟩

/-- Both tables of a key are among some names. -/
def ForeignKey.Within (names : List String) (key : ForeignKey) : Prop :=
  key.table ∈ names ∧ key.targetTable ∈ names

namespace Declarations

theorem exists_declaredGraph_iff {tables : List Table} (hnames : (tables.map Table.name).Nodup) :
    (∃ graph, declaredGraph tables = .ok graph) ↔
      ∀ key ∈ tables.flatMap Table.foreignKeys, key.Within (tables.map Table.name) := by
  apply exists_foldlM_iff fun graph => graph.tables = tables.map Table.name
  · rintro graph key hgraph
    rw [KeyGraph.exists_addForeignKey_iff, hgraph]
    rfl
  · rintro graph key next hgraph hadd
    exact (KeyGraph.addForeignKey_tables hadd).trans hgraph
  · rw [foldl_addTable (by rwa [List.nil_append])]
    exact List.nil_append _

/-- Tables and the nodes of a graph have some names, in this order. -/
structure Named (names : List String) (state : List Table × KeyGraph) : Prop where
  tables : state.1.map Table.name = names
  nodes : state.2.tables = names

theorem exists_addCustomKey_iff {state : List Table × KeyGraph} {key : ForeignKey}
    (hstate : Named names state) :
    (∃ next, addCustomKey state key = .ok next) ↔ key.Within names := by
  have howner : (state.1.any fun table => table.name == key.table) = true ↔ key.table ∈ names := by
    rw [← hstate.tables, List.any_eq_true, List.mem_map]
    exact exists_congr fun table => and_congr_right' beq_iff_eq
  have hends : (∃ next, state.2.addForeignKey key = .ok next) ↔ key.Within names := by
    rw [KeyGraph.exists_addForeignKey_iff, hstate.nodes]
    rfl
  rw [addCustomKey]
  split
  · constructor
    · rintro ⟨next, hnext⟩
      obtain ⟨graph, hadd, -⟩ := bind_ok_iff.mp hnext
      exact hends.mp ⟨graph, hadd⟩
    · intro hwithin
      obtain ⟨graph, hadd⟩ := hends.mpr hwithin
      exact ⟨_, bind_ok_iff.mpr ⟨graph, hadd, rfl⟩⟩
  · next hmissing => exact iff_of_false nofun fun hwithin => hmissing (howner.mpr hwithin.1)

theorem Named.addCustomKey {state next : List Table × KeyGraph} {key : ForeignKey}
    (hstate : Named names state) (hadd : addCustomKey state key = .ok next) : Named names next := by
  obtain ⟨graph, hgraph, rfl⟩ := addCustomKey_ok hadd
  exact ⟨(listColumn_names ..).trans hstate.tables,
    (KeyGraph.addForeignKey_tables hgraph).trans hstate.nodes⟩

theorem exists_addCustomKeys_iff {state : List Table × KeyGraph} (hstate : Named names state)
    (keys : List ForeignKey) :
    (∃ next, keys.foldlM addCustomKey state = .ok next) ↔ ∀ key ∈ keys, key.Within names :=
  exists_foldlM_iff (Named names) (ForeignKey.Within names) exists_addCustomKey_iff
    Named.addCustomKey keys hstate

theorem forM_checkJunction_iff {graph : KeyGraph} {junctions : List Junction} :
    junctions.forM (checkJunction graph) = .ok () ↔
      ∀ junction ∈ junctions, junction.interim ∈ graph.tables := by
  have hcheck (junction : Junction) :
      checkJunction graph junction = .ok () ↔ junction.interim ∈ graph.tables := by
    rw [checkJunction, KeyGraph.contains]
    split
    · next hknown => exact iff_of_true rfl (List.contains_iff_mem.mp hknown)
    · next hmissing =>
        exact iff_of_false (by simp) fun hknown => hmissing (List.contains_iff_mem.mpr hknown)
  induction junctions with
  | nil => exact iff_of_true rfl (List.forall_mem_nil _)
  | cons junction rest ih =>
      change (checkJunction graph junction >>= fun _ => rest.forM (checkJunction graph)) = _ ↔ _
      rw [bind_ok_iff, List.forall_mem_cons, ← hcheck]
      constructor
      · rintro ⟨_, hfirst, hrest⟩
        exact ⟨hfirst, ih.mp hrest⟩
      · rintro ⟨hfirst, hrest⟩
        exact ⟨(), hfirst, ih.mpr hrest⟩

/-- Declarations of tables with different names can be built where both tables of every key and
the table of every junction are declared. -/
theorem exists_build_iff (hnames : declarations.tableNames.Nodup) :
    (∃ schema, declarations.build = .ok schema) ↔
      (∀ key ∈ declarations.foreignKeys, key.Within declarations.tableNames) ∧
        ∀ junction ∈ declarations.junctions, junction.interim ∈ declarations.tableNames := by
  have hsame : (declarations.tables.map Table.withKeyColumns).map Table.name =
      declarations.tableNames := map_name_withKeyColumns declarations.tables
  have hgraphs := exists_declaredGraph_iff (hsame ▸ hnames)
  rw [hsame, flatMap_foreignKeys_withKeyColumns] at hgraphs
  have hstart {graph : KeyGraph}
      (hgraph : declaredGraph (declarations.tables.map Table.withKeyColumns) = .ok graph) :
      Named declarations.tableNames
        ((declarations.tables.map Table.withKeyColumns).foldl putTable [], graph) := by
    refine ⟨?_, (holds_declaredGraph (hsame ▸ hnames) hgraph).tables.trans hsame⟩
    rw [foldl_putTable (hsame ▸ hnames), List.nil_append, hsame]
  constructor
  · rintro ⟨schema, hbuilt⟩
    obtain ⟨graph, owners, complete, hgraph, hcustom, hjunctions, -⟩ := build_ok_iff.mp hbuilt
    have hnamed := foldlM_keeps (Named _) Named.addCustomKey (hstart hgraph) hcustom
    refine ⟨List.forall_mem_append.mpr ⟨hgraphs.mp ⟨graph, hgraph⟩, ?_⟩, ?_⟩
    · exact (exists_addCustomKeys_iff (hstart hgraph) _).mp ⟨_, hcustom⟩
    · rw [← hnamed.nodes]
      exact forM_checkJunction_iff.mp hjunctions
  · rintro ⟨hkeys, hjunctions⟩
    obtain ⟨hdeclared, hadded⟩ := List.forall_mem_append.mp hkeys
    obtain ⟨graph, hgraph⟩ := hgraphs.mpr hdeclared
    obtain ⟨state, hcustom⟩ := (exists_addCustomKeys_iff (hstart hgraph) _).mpr hadded
    have hnamed := foldlM_keeps (Named _) Named.addCustomKey (hstart hgraph) hcustom
    rw [← hnamed.nodes] at hjunctions
    have hchecked := forM_checkJunction_iff.mpr hjunctions
    exact ⟨_, build_ok_iff.mpr ⟨graph, _, _, hgraph, hcustom, hchecked, rfl⟩⟩

/-! ## The keys of a table -/

theorem filter_foreignKeys (table : Table) (name : String) :
    (table.foreignKeys.filter fun key => key.table == name) =
      if table.name = name then table.foreignKeys else [] := by
  rw [Table.foreignKeys, List.filter_map]
  split
  · next hname => simp [Function.comp_def, hname]
  · next hname => simp [Function.comp_def, hname]

theorem filter_foreignKeys_of_ne {tables : List Table}
    (hothers : ∀ table ∈ tables, table.name ≠ name) :
    ((tables.flatMap Table.foreignKeys).filter fun key => key.table == name) = [] := by
  rw [List.filter_flatMap, List.flatMap_eq_nil_iff]
  intro table htable
  rw [filter_foreignKeys, if_neg (hothers table htable)]

/-- A declared table has the keys that it declares and the custom ones. -/
theorem keysOf_of_mem (hnames : declarations.tableNames.Nodup) {table : Table}
    (htable : table ∈ declarations.tables) :
    declarations.keysOf table.name =
      table.foreignKeys ++ declarations.customKeys.filter fun key => key.table == table.name := by
  obtain ⟨before, behind, hsplit⟩ := List.append_of_mem htable
  rw [tableNames, hsplit, List.map_append, List.map_cons, List.nodup_middle, List.nodup_cons,
    ← List.map_append, List.mem_map] at hnames
  have hothers : ∀ other ∈ before ++ behind, other.name ≠ table.name :=
    fun other hother hsame => hnames.1 ⟨other, hother, hsame⟩
  obtain ⟨hbefore, hbehind⟩ := List.forall_mem_append.mp hothers
  rw [keysOf, foreignKeys, hsplit, List.flatMap_append, List.flatMap_cons, List.filter_append,
    List.filter_append, List.filter_append, filter_foreignKeys_of_ne hbefore,
    filter_foreignKeys_of_ne hbehind, filter_foreignKeys, if_pos rfl, List.nil_append,
    List.append_nil]

/-- A table that is not declared has custom keys at most. -/
theorem keysOf_of_not_mem (hname : name ∉ declarations.tableNames) :
    declarations.keysOf name = declarations.customKeys.filter fun key => key.table == name := by
  have hothers : ∀ table ∈ declarations.tables, table.name ≠ name :=
    fun table htable hsame => hname (List.mem_map.mpr ⟨table, htable, hsame⟩)
  rw [keysOf, foreignKeys, List.filter_append, filter_foreignKeys_of_ne hothers, List.nil_append]

/-! ## The columns of a table -/

/-- A table as it is declared and the same table of the schema, which also lists its primary key,
the columns of its keys, and the columns that keys reference. -/
structure Completes (declarations : Declarations) (table definition : Table) : Prop where
  name : definition.name = table.name
  schema : definition.schema = table.schema
  hasColumn : ∀ column, definition.hasColumn column = true ↔
    table.hasColumn column = true ∨ column ∈ table.primaryKey ∨
      (∃ key ∈ declarations.keysOf table.name, key.column = column) ∨
        ∃ key ∈ declarations.foreignKeys, key.targetTable = table.name ∧ key.targetColumn = column

end Declarations

/-- The column that a key is on, with its table. -/
def ForeignKey.place (key : ForeignKey) : String × String :=
  (key.table, key.column)

/-- The column that a key references, with its table. -/
def ForeignKey.targetPlace (key : ForeignKey) : String × String :=
  (key.targetTable, key.targetColumn)

/-- A table with some more columns listed, of those that belong to several tables. -/
structure Table.Gains (listed : List (String × String)) (table definition : Table) : Prop where
  name : definition.name = table.name
  schema : definition.schema = table.schema
  hasColumn : ∀ column, definition.hasColumn column = true ↔
    table.hasColumn column = true ∨ (table.name, column) ∈ listed

namespace Table

theorem Gains.listColumn {listed : List (String × String)} {table definition : Table}
    (hgains : table.Gains listed definition) (name column : String) :
    table.Gains (listed ++ [(name, column)])
      (if definition.name == name then definition.withColumn column else definition) := by
  have hlisted (other : String) : (table.name, other) ∈ listed ++ [(name, column)] ↔
      (table.name, other) ∈ listed ∨ definition.name = name ∧ other = column := by
    rw [List.mem_append, List.mem_singleton, Prod.mk_inj, hgains.name]
  split
  · next hname =>
      refine ⟨(definition.withColumn_name column).trans hgains.name,
        (definition.withColumn_schema column).trans hgains.schema, fun other => ?_⟩
      rw [hasColumn_withColumn, hgains.hasColumn, hlisted, and_iff_right (beq_iff_eq.mp hname),
        or_assoc]
  · next hname =>
      refine ⟨hgains.name, hgains.schema, fun other => ?_⟩
      have hother : ¬ (definition.name = name ∧ other = column) :=
        fun hsame => hname (beq_iff_eq.mpr hsame.1)
      rw [hgains.hasColumn, hlisted, or_iff_left hother]

end Table

namespace Declarations

variable {listed : List (String × String)} {declared tables : List Table}

theorem listColumn_gains (hgains : List.Forall₂ (Table.Gains listed) declared tables)
    (name column : String) :
    List.Forall₂ (Table.Gains (listed ++ [(name, column)])) declared
      (listColumn tables name column) := by
  rw [listColumn, List.forall₂_map_right_iff]
  exact hgains.imp fun _ _ hgains => hgains.listColumn name column

theorem listTargets_gains (keys : List ForeignKey) :
    ∀ {listed : List (String × String)} {tables : List Table},
      List.Forall₂ (Table.Gains listed) declared tables →
        List.Forall₂ (Table.Gains (listed ++ keys.map ForeignKey.targetPlace)) declared
          (keys.foldl (fun tables key => listColumn tables key.targetTable key.targetColumn)
            tables) := by
  induction keys with
  | nil =>
      intro listed tables hgains
      rwa [List.map_nil, List.append_nil]
  | cons key rest ih =>
      intro listed tables hgains
      have hrest := ih (listColumn_gains hgains key.targetTable key.targetColumn)
      rwa [List.append_assoc] at hrest

/-- Tables that list the columns of some keys in addition. -/
def OwnersGain (declared : List Table) (keys : List ForeignKey)
    (state : List Table × KeyGraph) : Prop :=
  List.Forall₂ (Table.Gains (keys.map ForeignKey.place)) declared state.1

theorem OwnersGain.addCustomKey {keys : List ForeignKey} {state next : List Table × KeyGraph}
    {key : ForeignKey}
    (hgains : OwnersGain declared keys state) (hadd : addCustomKey state key = .ok next) :
    OwnersGain declared (keys ++ [key]) next := by
  obtain ⟨graph, -, rfl⟩ := addCustomKey_ok hadd
  rw [OwnersGain, List.map_append]
  exact listColumn_gains hgains key.table key.column

/-- What the tables of a schema list in addition are the columns of keys. -/
theorem completes_of_gains (hnames : declarations.tableNames.Nodup) {table definition : Table}
    {keys : List ForeignKey} (hkeys : ∀ key, key ∈ keys ↔ key ∈ declarations.foreignKeys)
    (htable : table ∈ declarations.tables)
    (hgains : table.withKeyColumns.Gains
      (declarations.customKeys.map ForeignKey.place ++ keys.map ForeignKey.targetPlace)
      definition) : declarations.Completes table definition := by
  have hown : table.withKeyColumns.name = table.name := table.withKeyColumns_name
  obtain ⟨-, -, hschema, hcolumns⟩ := Table.foldl_withColumn
    (table.primaryKey ++ table.references.map Reference.column) table
  refine ⟨hgains.name.trans hown, hgains.schema.trans hschema, fun column => ?_⟩
  have hkeyed : (∃ key ∈ declarations.keysOf table.name, key.column = column) ↔
      column ∈ table.references.map Reference.column ∨
        (table.name, column) ∈ declarations.customKeys.map ForeignKey.place := by
    rw [keysOf_of_mem hnames htable]
    simp [Table.foreignKeys, ForeignKey.place, or_and_right, exists_or, and_assoc]
  have htargets : (table.name, column) ∈ keys.map ForeignKey.targetPlace ↔
      ∃ key ∈ declarations.foreignKeys,
        key.targetTable = table.name ∧ key.targetColumn = column := by
    rw [List.mem_map]
    exact exists_congr fun key => and_congr (hkeys key) Prod.mk_inj
  rw [hgains.hasColumn, hown, Table.withKeyColumns, hcolumns, hkeyed, ← htargets,
    List.mem_append, List.mem_append]
  simp only [or_assoc]

/-- A built schema has the declared tables in order, completed by the columns of keys. -/
theorem forall₂_completes (hnames : declarations.tableNames.Nodup)
    (hbuilt : declarations.build = .ok schema) :
    List.Forall₂ declarations.Completes declarations.tables schema.tables := by
  have hbuilds := builds_of_build hnames hbuilt
  have hsame : (declarations.tables.map Table.withKeyColumns).map Table.name =
      declarations.tableNames := map_name_withKeyColumns declarations.tables
  obtain ⟨graph, owners, complete, -, hcustom, -, rfl⟩ := build_ok_iff.mp hbuilt
  rw [foldl_putTable (hsame ▸ hnames), List.nil_append] at hcustom
  have hstart : OwnersGain (declarations.tables.map Table.withKeyColumns) []
      (declarations.tables.map Table.withKeyColumns, graph) :=
    List.forall₂_same.mpr fun table _ =>
      ⟨rfl, rfl, fun column => (or_iff_left List.not_mem_nil).symm⟩
  have howners := foldlM_collects (OwnersGain _) OwnersGain.addCustomKey [] hstart hcustom
  have htargets := listTargets_gains complete.foreignKeys howners
  rw [List.forall₂_map_left_iff] at htargets
  have hall := (List.forall₂_and_left _ _).mpr ⟨fun table htable => htable, htargets⟩
  exact hall.imp fun table definition hgains =>
    completes_of_gains hnames (fun key => hbuilds.graph.mem_iff) hgains.1 hgains.2

end Declarations

end TreeQuery.Catalog
