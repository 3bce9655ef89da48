import TreeQuery.Proofs.Catalog.Faithful

/-!
# Listed keys

A schema that was built lists every column that a foreign key references, whether or not the
table declares it.  A nested bucket that is read later is found by such a column of its
parent, so the parent's statement can always select it.
-/

namespace TreeQuery.Catalog

variable {tables : List Table} {name column : String}

/-! ## Listing columns -/

@[simp]
theorem Table.withColumn_name (table : Table) (column : String) :
    (table.withColumn column).name = table.name := by
  unfold withColumn
  split <;> rfl

theorem Table.hasColumn_withColumn {table : Table} {column other : String} :
    (table.withColumn column).hasColumn other = true ↔
      table.hasColumn other = true ∨ other = column := by
  unfold withColumn
  split
  · next hlisted =>
      refine ⟨.inl, ?_⟩
      rintro (hother | rfl)
      · exact hother
      · exact hlisted
  · simp [hasColumn]

/-- Every table of a name lists a column. -/
def ListedOn (tables : List Table) (name column : String) : Prop :=
  ∀ table ∈ tables, table.name = name → table.hasColumn column = true

namespace Declarations

theorem listColumn_names (tables : List Table) (name column : String) :
    (listColumn tables name column).map Table.name = tables.map Table.name := by
  rw [listColumn, List.map_map]
  apply List.map_congr_left
  intro table _
  simp only [Function.comp_apply]
  split
  · exact table.withColumn_name column
  · rfl

theorem listedOn_listColumn (tables : List Table) (name column : String) :
    ListedOn (listColumn tables name column) name column := by
  intro listed hlisted hname
  obtain ⟨table, -, rfl⟩ := List.mem_map.mp hlisted
  by_cases hsame : table.name = name
  · simp only [hsame, beq_self_eq_true, if_true] at hname ⊢
    exact Table.hasColumn_withColumn.mpr (.inr rfl)
  · simp only [beq_eq_false_iff_ne.mpr hsame, Bool.false_eq_true, if_false] at hname
    exact absurd hname hsame

/-- What is listed stays listed. -/
theorem listColumn_keeps {other listed : String} (hlisted : ListedOn tables other listed) :
    ListedOn (listColumn tables name column) other listed := by
  intro changed hchanged hname
  obtain ⟨table, htable, rfl⟩ := List.mem_map.mp hchanged
  by_cases hsame : table.name = name
  · simp only [hsame, beq_self_eq_true, if_true] at hname ⊢
    rw [Table.withColumn_name] at hname
    exact Table.hasColumn_withColumn.mpr (.inl (hlisted table htable hname))
  · simp only [beq_eq_false_iff_ne.mpr hsame, Bool.false_eq_true, if_false] at hname ⊢
    exact hlisted table htable hname

/-- The tables with the referenced columns of some keys listed. -/
theorem listTargets (keys : List ForeignKey) : ∀ tables : List Table,
    let targets := keys.foldl
      (fun tables key => listColumn tables key.targetTable key.targetColumn) tables
    targets.map Table.name = tables.map Table.name ∧
      (∀ name column, ListedOn tables name column → ListedOn targets name column) ∧
        ∀ key ∈ keys, ListedOn targets key.targetTable key.targetColumn := by
  induction keys with
  | nil => exact fun tables => ⟨rfl, fun _ _ hlisted => hlisted, nofun⟩
  | cons key rest ih =>
      intro tables
      obtain ⟨hnames, hkeeps, hlists⟩ :=
        ih (listColumn tables key.targetTable key.targetColumn)
      rw [listColumn_names] at hnames
      refine ⟨hnames, fun name column hlisted => hkeeps name column (listColumn_keeps hlisted),
        List.forall_mem_cons.mpr ⟨?_, hlists⟩⟩
      exact hkeeps _ _ (listedOn_listColumn tables key.targetTable key.targetColumn)

/-! ## Tables and keys of the graph -/

theorem mem_putTable_names (tables : List Table) (table : Table) {name : String} :
    name ∈ (putTable tables table).map Table.name ↔
      name ∈ tables.map Table.name ∨ name = table.name := by
  unfold putTable
  split
  · next hknown =>
      have hnames : (tables.map fun other =>
          if other.name == table.name then table else other).map Table.name =
            tables.map Table.name := by
        rw [List.map_map]
        apply List.map_congr_left
        intro other _
        simp only [Function.comp_apply]
        split
        · next hsame => exact (beq_iff_eq.mp hsame).symm
        · rfl
      rw [hnames, or_iff_left_of_imp]
      rintro rfl
      obtain ⟨other, hother, hsame⟩ := List.any_eq_true.mp hknown
      exact List.mem_map.mpr ⟨other, hother, beq_iff_eq.mp hsame⟩
  · rw [List.map_append, List.mem_append, List.map_singleton, List.mem_singleton]

theorem mem_foldl_putTable_names {declared : List Table} : ∀ {tables : List Table},
    name ∈ (declared.foldl putTable tables).map Table.name ↔
      name ∈ tables.map Table.name ∨ name ∈ declared.map Table.name := by
  induction declared with
  | nil =>
      intro tables
      simp
  | cons table rest ih =>
      intro tables
      rw [List.foldl_cons, ih, mem_putTable_names, List.map_cons, List.mem_cons, or_assoc]

/-- Every table of a graph is among those of the given names, and every key of the graph leads
to one of its tables. -/
structure Grounded (names : List String) (graph : KeyGraph) : Prop where
  tables : ∀ name ∈ graph.tables, name ∈ names
  targets : ∀ key ∈ graph.foreignKeys, key.targetTable ∈ graph.tables

theorem Grounded.addTable {names : List String} {graph : KeyGraph}
    (hgrounded : Grounded names graph) (hname : name ∈ names) :
    Grounded names (graph.addTable name) := by
  unfold KeyGraph.addTable
  split
  · exact hgrounded
  · refine ⟨List.forall_mem_append.mpr ⟨hgrounded.tables, ?_⟩, ?_⟩
    · exact List.forall_mem_singleton.mpr hname
    · exact fun key hkey => List.mem_append_left _ (hgrounded.targets key hkey)

theorem Grounded.addTables {names : List String} : ∀ {declared : List Table} {graph : KeyGraph},
    Grounded names graph → (∀ table ∈ declared, table.name ∈ names) →
      Grounded names (declared.foldl (fun graph table => graph.addTable table.name) graph)
  | [], _, hgrounded, _ => hgrounded
  | table :: _, _, hgrounded, hnames =>
      (hgrounded.addTable (hnames table List.mem_cons_self)).addTables
        fun other hother => hnames other (List.mem_cons_of_mem _ hother)

theorem Grounded.addForeignKey {names : List String} {graph next : KeyGraph} {key : ForeignKey}
    (hgrounded : Grounded names graph) (hadd : graph.addForeignKey key = .ok next) :
    Grounded names next := by
  obtain ⟨-, htarget, rfl⟩ := KeyGraph.addForeignKey_ok hadd
  split
  · exact hgrounded
  · exact ⟨hgrounded.tables, List.forall_mem_append.mpr
      ⟨hgrounded.targets, List.forall_mem_singleton.mpr htarget⟩⟩

/-- What holds of the entries so far and of the state after them holds in the end. -/
theorem foldlM_collects {ε α β : Type} (kind : List α → β → Prop) {step : β → α → Except ε β}
    (hstep : ∀ {seen state entry next}, kind seen state → step state entry = .ok next →
      kind (seen ++ [entry]) next) :
    ∀ {entries : List α} (seen : List α) {start finish : β}, kind seen start →
      entries.foldlM step start = .ok finish → kind (seen ++ entries) finish
  | [], _, _, _, hstart, hrun => by
      obtain rfl := Except.ok.inj hrun
      rwa [List.append_nil]
  | entry :: rest, seen, _, _, hstart, hrun => by
      rw [List.foldlM_cons] at hrun
      obtain ⟨middle, hentry, hrest⟩ := bind_ok_iff.mp hrun
      have hcollected := foldlM_collects kind hstep (seen ++ [entry]) (hstep hstart hentry) hrest
      rwa [List.append_assoc, List.singleton_append] at hcollected

/-- What every step keeps is kept by all of them in a row. -/
theorem foldlM_keeps {ε α β : Type} (kind : β → Prop) {step : β → α → Except ε β}
    (hstep : ∀ {state entry next}, kind state → step state entry = .ok next → kind next)
    {entries : List α} {start finish : β} (hstart : kind start)
    (hrun : entries.foldlM step start = .ok finish) : kind finish :=
  foldlM_collects (fun _ => kind) hstep [] hstart hrun

/-- The graph of the declared keys is about the declared tables. -/
theorem declaredGraph_grounded {graph : KeyGraph} (hgraph : declaredGraph tables = .ok graph) :
    Grounded (tables.map Table.name) graph := by
  have hnone : Grounded (tables.map Table.name) {} := ⟨nofun, nofun⟩
  have hnodes := hnone.addTables fun table htable => List.mem_map_of_mem htable
  rw [declaredGraph] at hgraph
  exact foldlM_keeps (Grounded _) Grounded.addForeignKey hnodes hgraph

/-- What comes of a custom key that is taken. -/
theorem addCustomKey_ok {state next : List Table × KeyGraph} {key : ForeignKey}
    (hadd : addCustomKey state key = .ok next) :
    ∃ graph, state.2.addForeignKey key = .ok graph ∧
      next = (listColumn state.1 key.table key.column, graph) := by
  unfold addCustomKey at hadd
  split at hadd
  · obtain ⟨graph, hgraph, hnext⟩ := bind_ok_iff.mp hadd
    exact ⟨graph, hgraph, (Except.ok.inj hnext).symm⟩
  · cases hadd

/-- A custom key is added between tables that are there. -/
theorem addCustomKey_grounded {state next : List Table × KeyGraph} {key : ForeignKey}
    (hstate : Grounded (state.1.map Table.name) state.2)
    (hadd : addCustomKey state key = .ok next) : Grounded (next.1.map Table.name) next.2 := by
  obtain ⟨graph, hgraph, rfl⟩ := addCustomKey_ok hadd
  rw [listColumn_names]
  exact hstate.addForeignKey hgraph

/-- A schema is built by adding the declared keys, then the custom ones, and checking the
junctions. -/
theorem build_ok_iff {declarations : Declarations} {schema : Schema} :
    declarations.build = .ok schema ↔
      ∃ graph owners complete,
        declaredGraph (declarations.tables.map Table.withKeyColumns) = .ok graph ∧
        declarations.customKeys.foldlM addCustomKey
          ((declarations.tables.map Table.withKeyColumns).foldl putTable [], graph) =
            .ok (owners, complete) ∧
        declarations.junctions.forM (checkJunction complete) = .ok () ∧
        schema = ⟨complete.foreignKeys.foldl
          (fun tables key => listColumn tables key.targetTable key.targetColumn) owners, complete,
          declarations.junctions⟩ := by
  rw [build]
  constructor
  · intro hbuilt
    obtain ⟨graph, hgraph, hbuilt⟩ := bind_ok_iff.mp hbuilt
    obtain ⟨⟨owners, complete⟩, hcustom, hbuilt⟩ := bind_ok_iff.mp hbuilt
    obtain ⟨_, hjunctions, hbuilt⟩ := bind_ok_iff.mp hbuilt
    exact ⟨graph, owners, complete, hgraph, hcustom, hjunctions, (Except.ok.inj hbuilt).symm⟩
  · rintro ⟨graph, owners, complete, hgraph, hcustom, hjunctions, rfl⟩
    exact bind_ok_iff.mpr ⟨graph, hgraph, bind_ok_iff.mpr ⟨_, hcustom,
      bind_ok_iff.mpr ⟨(), hjunctions, rfl⟩⟩⟩

end Declarations

namespace Schema

/-- Every column that a key references is listed on its table. -/
def ListsTargets (schema : Schema) : Prop :=
  ∀ key ∈ schema.graph.foreignKeys, schema.hasColumn key.targetTable key.targetColumn = true

theorem hasColumn_of_listedOn {schema : Schema} (hname : name ∈ schema.tables.map Table.name)
    (hlisted : ListedOn schema.tables name column) : schema.hasColumn name column = true := by
  obtain ⟨table, htable, hsame⟩ := List.mem_map.mp hname
  have hfound : (schema.tables.find? fun table => table.name == name).isSome = true :=
    List.find?_isSome.mpr ⟨table, htable, beq_iff_eq.mpr hsame⟩
  obtain ⟨definition, hdefinition⟩ := Option.isSome_iff_exists.mp hfound
  have hnamed := List.find?_some hdefinition
  rw [hasColumn, tableNamed?, hdefinition]
  exact hlisted definition (List.mem_of_find?_eq_some hdefinition) (beq_iff_eq.mp hnamed)

/-- A schema that was built lists the columns that its keys reference. -/
theorem listsTargets_of_build {declarations : Declarations} {schema : Schema}
    (hbuilt : declarations.build = .ok schema) : schema.ListsTargets := by
  obtain ⟨graph, owners, complete, hgraph, hcustom, -, rfl⟩ := Declarations.build_ok_iff.mp hbuilt
  have hdeclared := Declarations.declaredGraph_grounded hgraph
  have hstart : Declarations.Grounded
      (((declarations.tables.map Table.withKeyColumns).foldl Declarations.putTable []).map
        Table.name) graph := by
    refine ⟨fun name hname => ?_, hdeclared.targets⟩
    exact Declarations.mem_foldl_putTable_names.mpr (.inr (hdeclared.tables name hname))
  have hcomplete : Declarations.Grounded (owners.map Table.name) complete :=
    Declarations.foldlM_keeps (fun state => Declarations.Grounded (state.1.map Table.name) state.2)
      Declarations.addCustomKey_grounded hstart hcustom
  obtain ⟨hnames, -, hlists⟩ := Declarations.listTargets complete.foreignKeys owners
  intro key hkey
  refine hasColumn_of_listedOn ?_ (hlists key hkey)
  rw [hnames]
  exact hcomplete.tables _ (hcomplete.targets key hkey)

/-- A link that is deferred starts at a column that the source's table lists. -/
theorem ListsTargets.hasColumn {schema : Schema} (hlists : schema.ListsTargets)
    {source target : Path} {link : Link}
    (hlink : schema.linkBetween source target = .ok (some link))
    (hdeferred : link.isDeferred = true) :
    schema.hasColumn source.tableName link.source.name = true := by
  cases linkBetween_ok hlink with
  | manyToOne => cases hdeferred
  | oneToMany hkey hleads =>
      rw [← hleads]
      exact hlists _ (mem_outgoing.mp hkey).1
  | manyToMany _ _ hkey _ hleads =>
      rw [← hleads]
      exact hlists _ (mem_outgoing.mp hkey).1

end Schema

end TreeQuery.Catalog
