import TreeQuery.Proofs.Catalog.ListedKeys

/-!
# The keys of a built schema

Building adds the keys to the graph one after another, first the declared and then the custom
ones, and drops those that are there already.  Dropping them changes no search for a first key,
so a built schema can be searched as if it held all keys of its declarations in order.  Both
columns of every key are listed on their tables.
-/

namespace TreeQuery.Catalog

variable {names : List String} {keys : List ForeignKey} {graph : KeyGraph}

/-! ## The graph -/

/-- A graph of some tables that is searched like a list of keys. -/
structure KeyGraph.Holds (names : List String) (keys : List ForeignKey) (graph : KeyGraph) :
    Prop where
  tables : graph.tables = names
  owners : ∀ key ∈ graph.foreignKeys, key.table ∈ names
  firsts : ∀ test, graph.foreignKeys.find? test = keys.find? test

namespace KeyGraph.Holds

theorem mem_iff (hholds : graph.Holds names keys) {key : ForeignKey} :
    key ∈ graph.foreignKeys ↔ key ∈ keys := by
  have hfound : ∀ entries : List ForeignKey,
      key ∈ entries ↔ (entries.find? (· == key)).isSome = true := by simp
  rw [hfound, hfound, hholds.firsts]

theorem find?_outgoing (hholds : graph.Holds names keys) (table : String)
    (test : ForeignKey → Bool) :
    (graph.outgoing table).find? test =
      (keys.filter fun key => key.table == table).find? test := by
  rw [outgoing, List.find?_filter, List.find?_filter, hholds.firsts]

/-- A key that is added is searched for after the others, also where it is dropped. -/
theorem addForeignKey {next : KeyGraph} {key : ForeignKey} (hholds : graph.Holds names keys)
    (hadd : graph.addForeignKey key = .ok next) : next.Holds names (keys ++ [key]) := by
  obtain ⟨howner, -, rfl⟩ := KeyGraph.addForeignKey_ok hadd
  rw [hholds.tables] at howner
  split
  · next hknown =>
      refine ⟨hholds.tables, hholds.owners, fun test => ?_⟩
      rw [List.find?_append, ← hholds.firsts]
      -- a key that is there already is passed over wherever nothing in the graph is found
      cases hfirst : graph.foreignKeys.find? test with
      | some found => rfl
      | none =>
          rw [List.find?_singleton, if_neg (List.find?_eq_none.mp hfirst key hknown),
            Option.none_or]
  · refine ⟨hholds.tables, List.forall_mem_append.mpr
      ⟨hholds.owners, List.forall_mem_singleton.mpr howner⟩, fun test => ?_⟩
    rw [List.find?_append, List.find?_append, hholds.firsts]

end KeyGraph.Holds

namespace Declarations

variable {tables : List Table}

/-- Tables of different names become the nodes of the graph in order. -/
theorem foldl_addTable : ∀ {declared : List Table} {graph : KeyGraph},
    (graph.tables ++ declared.map Table.name).Nodup →
      declared.foldl (fun graph table => KeyGraph.addTable graph table.name) graph =
        { graph with tables := graph.tables ++ declared.map Table.name }
  | [], graph, _ => by rw [List.map_nil, List.append_nil, List.foldl_nil]
  | table :: rest, graph, hnodup => by
      have hnew : graph.addTable table.name =
          { graph with tables := graph.tables ++ [table.name] } := by
        have hmissing : table.name ∉ graph.tables := by
          intro hknown
          exact (List.disjoint_of_nodup_append hnodup) hknown List.mem_cons_self
        rw [KeyGraph.addTable, if_neg (by simpa [KeyGraph.contains] using hmissing)]
      rw [List.map_cons, ← List.singleton_append, ← List.append_assoc] at hnodup
      rw [List.foldl_cons, hnew, foldl_addTable hnodup, List.map_cons, List.append_assoc,
        List.singleton_append]

theorem holds_declaredGraph (hnames : (tables.map Table.name).Nodup)
    (hgraph : declaredGraph tables = .ok graph) :
    graph.Holds (tables.map Table.name) (tables.flatMap Table.foreignKeys) := by
  rw [declaredGraph] at hgraph
  have hnodes : (tables.foldl (fun graph table => KeyGraph.addTable graph table.name) {}).Holds
      (tables.map Table.name) [] := by
    rw [foldl_addTable (by rwa [List.nil_append])]
    exact ⟨List.nil_append _, fun _ hkey => absurd hkey List.not_mem_nil, fun _ => rfl⟩
  exact foldlM_collects (KeyGraph.Holds _) KeyGraph.Holds.addForeignKey [] hnodes hgraph

/-! ## The tables -/

theorem foldl_putTable : ∀ {declared tables : List Table},
    ((tables ++ declared).map Table.name).Nodup →
      declared.foldl putTable tables = tables ++ declared
  | [], tables, _ => (List.append_nil tables).symm
  | table :: rest, tables, hnodup => by
      have hnew : putTable tables table = tables ++ [table] := by
        rw [putTable, if_neg]
        intro hknown
        obtain ⟨other, hother, hsame⟩ := List.any_eq_true.mp hknown
        rw [List.map_append] at hnodup
        apply List.disjoint_of_nodup_append hnodup (List.mem_map_of_mem hother)
        rw [beq_iff_eq.mp hsame]
        exact List.mem_cons_self
      rw [← List.singleton_append, ← List.append_assoc] at hnodup
      rw [List.foldl_cons, hnew, foldl_putTable hnodup, List.append_assoc, List.singleton_append]

end Declarations

namespace Table

theorem withColumn_references (table : Table) (column : String) :
    (table.withColumn column).references = table.references := by
  unfold withColumn
  split <;> rfl

theorem withColumn_schema (table : Table) (column : String) :
    (table.withColumn column).schema = table.schema := by
  unfold withColumn
  split <;> rfl

/-- Listing columns changes nothing but the columns of a table. -/
theorem foldl_withColumn (columns : List String) : ∀ table : Table,
    (columns.foldl withColumn table).name = table.name ∧
      (columns.foldl withColumn table).references = table.references ∧
        (columns.foldl withColumn table).schema = table.schema ∧
          ∀ column, (columns.foldl withColumn table).hasColumn column = true ↔
            table.hasColumn column = true ∨ column ∈ columns := by
  induction columns with
  | nil => exact fun table => ⟨rfl, rfl, rfl, fun column => (or_iff_left List.not_mem_nil).symm⟩
  | cons first rest ih =>
      intro table
      obtain ⟨hname, hreferences, hschema, hcolumns⟩ := ih (table.withColumn first)
      refine ⟨hname.trans (table.withColumn_name first),
        hreferences.trans (table.withColumn_references first),
        hschema.trans (table.withColumn_schema first), fun column => ?_⟩
      rw [List.foldl_cons, hcolumns, hasColumn_withColumn, List.mem_cons, or_assoc]

@[simp]
theorem withKeyColumns_name (table : Table) : table.withKeyColumns.name = table.name :=
  (foldl_withColumn _ table).1

@[simp]
theorem foreignKeys_withKeyColumns (table : Table) :
    table.withKeyColumns.foreignKeys = table.foreignKeys := by
  obtain ⟨hname, hreferences, -⟩ := foldl_withColumn
    (table.primaryKey ++ table.references.map Reference.column) table
  rw [foreignKeys, foreignKeys, withKeyColumns, hname, hreferences]

theorem hasColumn_withKeyColumns {table : Table} {key : ForeignKey}
    (hkey : key ∈ table.foreignKeys) : table.withKeyColumns.hasColumn key.column = true := by
  obtain ⟨reference, hreference, rfl⟩ := List.mem_map.mp hkey
  obtain ⟨-, -, -, hcolumns⟩ := foldl_withColumn
    (table.primaryKey ++ table.references.map Reference.column) table
  apply (hcolumns _).mpr
  exact .inr (List.mem_append_right _ (List.mem_map_of_mem hreference))

end Table

namespace Declarations

/-- The names of the declared tables. -/
def tableNames (declarations : Declarations) : List String :=
  declarations.tables.map Table.name

/-- All keys, the declared ones before the custom ones. -/
def foreignKeys (declarations : Declarations) : List ForeignKey :=
  declarations.tables.flatMap Table.foreignKeys ++ declarations.customKeys

/-- Tables and a graph that hold some keys, with the columns of these keys listed. -/
structure Collects (names : List String) (keys : List ForeignKey)
    (state : List Table × KeyGraph) : Prop where
  graph : state.2.Holds names keys
  tables : state.1.map Table.name = names
  listed : ∀ key ∈ keys, ListedOn state.1 key.table key.column

theorem Collects.addCustomKey {state next : List Table × KeyGraph} {key : ForeignKey}
    (hcollects : Collects names keys state) (hadd : addCustomKey state key = .ok next) :
    Collects names (keys ++ [key]) next := by
  obtain ⟨graph, hgraph, rfl⟩ := addCustomKey_ok hadd
  refine ⟨hcollects.graph.addForeignKey hgraph, (listColumn_names ..).trans hcollects.tables,
    List.forall_mem_append.mpr ⟨?_, List.forall_mem_singleton.mpr ?_⟩⟩
  · exact fun other hother => listColumn_keeps (hcollects.listed other hother)
  · exact listedOn_listColumn state.1 key.table key.column

theorem map_name_withKeyColumns (declared : List Table) :
    (declared.map Table.withKeyColumns).map Table.name = declared.map Table.name := by
  rw [List.map_map]
  exact List.map_congr_left fun table _ => table.withKeyColumns_name

theorem flatMap_foreignKeys_withKeyColumns (declared : List Table) :
    (declared.map Table.withKeyColumns).flatMap Table.foreignKeys =
      declared.flatMap Table.foreignKeys := by
  rw [List.flatMap_map]
  exact List.flatMap_congr fun table _ => table.foreignKeys_withKeyColumns

/-- Of tables with different names, the owner of a declared key is the only one of its name. -/
theorem collects_declared {declared : List Table} (hnames : (declared.map Table.name).Nodup)
    (hgraph : declaredGraph (declared.map Table.withKeyColumns) = .ok graph) :
    Collects (declared.map Table.name) (declared.flatMap Table.foreignKeys)
      ((declared.map Table.withKeyColumns).foldl putTable [], graph) := by
  have hsame := map_name_withKeyColumns declared
  have hkeys := flatMap_foreignKeys_withKeyColumns declared
  rw [← hsame] at hnames
  have hholds := holds_declaredGraph hnames hgraph
  rw [hsame, hkeys] at hholds
  rw [foldl_putTable hnames, List.nil_append]
  refine ⟨hholds, hsame, fun key hkey => ?_⟩
  obtain ⟨owner, howner, hkey⟩ := List.mem_flatMap.mp hkey
  have hname : key.table = owner.name := by
    obtain ⟨reference, -, rfl⟩ := List.mem_map.mp hkey
    rfl
  -- the owner as it was declared and the listed table have one name, so they are one table
  intro table htable htableName
  obtain rfl := List.inj_on_of_nodup_map hnames htable (List.mem_map_of_mem howner)
    (htableName.trans (hname.trans owner.withKeyColumns_name.symm))
  exact Table.hasColumn_withKeyColumns hkey

/-- A schema with the tables, keys and junctions of its declarations, which have different
names. -/
structure Builds (declarations : Declarations) (schema : Schema) : Prop where
  distinct : declarations.tableNames.Nodup
  graph : schema.graph.Holds declarations.tableNames declarations.foreignKeys
  junctions : schema.junctions = declarations.junctions
  owners : ∀ key ∈ declarations.foreignKeys, schema.hasColumn key.table key.column = true
  targets : ∀ key ∈ declarations.foreignKeys,
    schema.hasColumn key.targetTable key.targetColumn = true

theorem builds_of_build {declarations : Declarations} {schema : Schema}
    (hnames : declarations.tableNames.Nodup) (hbuilt : declarations.build = .ok schema) :
    declarations.Builds schema := by
  have htargets := Schema.listsTargets_of_build hbuilt
  obtain ⟨graph, owners, complete, hgraph, hcustom, -, rfl⟩ := build_ok_iff.mp hbuilt
  have hcollects : Collects declarations.tableNames declarations.foreignKeys (owners, complete) :=
    foldlM_collects (Collects declarations.tableNames) Collects.addCustomKey _
      (collects_declared hnames hgraph) hcustom
  obtain ⟨hlistedNames, hkeeps, -⟩ := listTargets complete.foreignKeys owners
  refine ⟨hnames, hcollects.graph, rfl, fun key hkey => ?_, fun key hkey => ?_⟩
  · apply Schema.hasColumn_of_listedOn
    · rw [hlistedNames, hcollects.tables]
      exact hcollects.graph.owners key (hcollects.graph.mem_iff.mpr hkey)
    · exact hkeeps _ _ (hcollects.listed key hkey)
  · exact htargets key (hcollects.graph.mem_iff.mpr hkey)

end Declarations

end TreeQuery.Catalog
