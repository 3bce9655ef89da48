import Mathlib.Data.List.Sort
import TreeQuery.Catalog.NumberedGraph
import TreeQuery.Proofs.FirstOccurrences

/-!
# Additions to a graph

A graph that is filled by any additions, some repeated and some refused, lists its tables and keys
in the order in which they first came.  Its numbers and its index show nowhere: however the graph
walks the edges of a node, it answers as the bare lists do, and it takes and refuses the same
additions.
-/

namespace TreeQuery.Catalog

/-! ## The lists -/

/-- The key that an addition with some outcome brings. -/
def Addition.brought? : Addition → Except SchemaError Unit → Option ForeignKey
  | .key added, .ok () => some added
  | _, _ => none

namespace KeyGraph

/-- What comes of one addition, and the graph after it. -/
def perform (graph : KeyGraph) : Addition → Except SchemaError Unit × KeyGraph
  | .table name => (.ok (), graph.addTable name)
  | .key key =>
      match graph.addForeignKey key with
      | .error problem => (.error problem, graph)
      | .ok next => (.ok (), next)

/-- A graph of the tables and keys that came so far, in the order in which they came. -/
structure Lists (names : List String) (keys : List ForeignKey) (graph : KeyGraph) : Prop where
  tables : graph.tables = names.eraseDups
  foreignKeys : graph.foreignKeys = keys.eraseDups
  ends : ∀ key ∈ keys, key.table ∈ names ∧ key.targetTable ∈ names

variable {graph : KeyGraph} {names : List String} {keys : List ForeignKey}

namespace Lists

theorem mem_tables (hlists : graph.Lists names keys) (name : String) :
    name ∈ graph.tables ↔ name ∈ names := by
  rw [hlists.tables, List.mem_eraseDups]

theorem mem_foreignKeys (hlists : graph.Lists names keys) (key : ForeignKey) :
    key ∈ graph.foreignKeys ↔ key ∈ keys := by
  rw [hlists.foreignKeys, List.mem_eraseDups]

theorem addTable (hlists : graph.Lists names keys) (name : String) :
    (graph.addTable name).Lists (names ++ [name]) keys := by
  have htables : (graph.addTable name).tables = (names ++ [name]).eraseDups := by
    have hsame : graph.contains name = names.contains name := by
      rw [Bool.eq_iff_iff, contains, List.contains_iff_mem, List.contains_iff_mem,
        hlists.mem_tables]
    rw [eraseDups_concat, ← hsame, KeyGraph.addTable, ← hlists.tables]
    split <;> rfl
  have hkeys : (graph.addTable name).foreignKeys = graph.foreignKeys := by
    rw [KeyGraph.addTable]
    split <;> rfl
  refine ⟨htables, hkeys.trans hlists.foreignKeys, fun key hkey => ?_⟩
  have hends := hlists.ends key hkey
  exact ⟨List.mem_append_left _ hends.1, List.mem_append_left _ hends.2⟩

end Lists

theorem perform_key (graph : KeyGraph) (key : ForeignKey) :
    graph.perform (.key key) =
      if key.table ∈ graph.tables then
        if key.targetTable ∈ graph.tables then
          (.ok (), if key ∈ graph.foreignKeys then graph
            else { graph with foreignKeys := graph.foreignKeys ++ [key] })
        else (.error (.danglingForeignKey key.table key.column key.targetTable), graph)
      else (.error (.unknownTable key.table), graph) := by
  rw [perform, addForeignKey_eq]
  by_cases howner : key.table ∈ graph.tables
  · by_cases htarget : key.targetTable ∈ graph.tables
    · rw [if_pos howner, if_pos howner, if_pos htarget, if_pos htarget]
    · rw [if_pos howner, if_pos howner, if_neg htarget, if_neg htarget]
  · rw [if_neg howner, if_neg howner]

theorem perform_key_ok_iff (key : ForeignKey) :
    (graph.perform (.key key)).1 = .ok () ↔
      key.table ∈ graph.tables ∧ key.targetTable ∈ graph.tables := by
  rw [← exists_addForeignKey_iff, perform]
  cases graph.addForeignKey key <;> simp

theorem Lists.addForeignKey {next : KeyGraph} {key : ForeignKey}
    (hlists : graph.Lists names keys) (hadd : graph.addForeignKey key = .ok next) :
    next.Lists names (keys ++ [key]) := by
  obtain ⟨howner, htarget, rfl⟩ := addForeignKey_ok hadd
  have hknown : keys.contains key = true ↔ key ∈ graph.foreignKeys := by
    rw [hlists.mem_foreignKeys, List.contains_iff_mem]
  rw [hlists.mem_tables] at howner htarget
  have hall := List.forall_mem_append.mpr
    ⟨hlists.ends, List.forall_mem_singleton.mpr ⟨howner, htarget⟩⟩
  split
  · next hkey =>
      refine ⟨hlists.tables, ?_, hall⟩
      rw [eraseDups_concat, if_pos (hknown.mpr hkey), hlists.foreignKeys]
  · next hkey =>
      refine ⟨hlists.tables, ?_, hall⟩
      rw [eraseDups_concat, if_neg (mt hknown.mp hkey), hlists.foreignKeys]

/-- One more addition. -/
theorem Lists.perform (hlists : graph.Lists names keys) (addition : Addition) :
    (graph.perform addition).2.Lists (names ++ addition.name?.toList)
      (keys ++ (addition.brought? (graph.perform addition).1).toList) := by
  cases addition with
  | table name => exact (List.append_nil keys).symm ▸ hlists.addTable name
  | key key =>
      change (graph.perform (.key key)).2.Lists (names ++ []) _
      rw [List.append_nil, KeyGraph.perform]
      cases hadd : graph.addForeignKey key with
      | error problem => exact (List.append_nil keys).symm ▸ hlists
      | ok next => exact hlists.addForeignKey hadd

end KeyGraph

/-! ## Numbers and names -/

namespace NumberedGraph

variable {walk : Walk} {graph : NumberedGraph}

/-- The lists of a graph, without its numbers. -/
def listed (graph : NumberedGraph) : KeyGraph :=
  ⟨graph.nodes, graph.foreignKeys⟩

/-- A walk that meets each edge that leaves a node once. -/
def Thorough (walk : Walk) : Prop :=
  ∀ graph node, (walk graph node).Perm (graph.leaving node)

theorem thorough_newestFirst : Thorough newestFirst :=
  fun graph node => List.reverse_perm (graph.leaving node)

/-- The index finds each table at its node, and each edge is between the nodes of its tables. -/
structure Consistent (graph : NumberedGraph) : Prop where
  index : ∀ table node, graph.node? table = some node ↔ graph.nodes[node]? = some table
  source : ∀ edge ∈ graph.edges, graph.node? edge.key.table = some edge.source
  target : ∀ edge ∈ graph.edges, graph.node? edge.key.targetTable = some edge.target

namespace Consistent

theorem empty : Consistent {} := by
  refine ⟨fun table node => ?_, ?_, ?_⟩
  · exact iff_of_false nofun nofun
  · exact fun edge hedge => absurd hedge List.not_mem_nil
  · exact fun edge hedge => absurd hedge List.not_mem_nil

theorem mem_nodes_iff (hconsistent : graph.Consistent) (table : String) :
    table ∈ graph.nodes ↔ ∃ node, graph.node? table = some node := by
  rw [List.mem_iff_getElem?]
  exact exists_congr fun node => (hconsistent.index table node).symm

theorem node?_eq_none (hconsistent : graph.Consistent) {table : String} :
    graph.node? table = none ↔ table ∉ graph.nodes := by
  rw [hconsistent.mem_nodes_iff, ← Option.isSome_iff_exists, Option.not_isSome_iff_eq_none]

end Consistent

theorem leaving_ascends (graph : NumberedGraph) (node : Nat) :
    (graph.leaving node).Pairwise fun first second => first.2 ≤ second.2 := by
  have hnumbers : graph.edges.zipIdx.Pairwise fun first second => first.2 < second.2 := by
    rw [← List.pairwise_map (f := Prod.snd) (R := (· < ·)), List.zipIdx_map_snd]
    exact List.pairwise_lt_range'
  exact (hnumbers.filter _).imp Nat.le_of_lt

theorem map_fst_leaving (graph : NumberedGraph) (node : Nat) :
    (graph.leaving node).map Prod.fst = graph.edges.filter fun edge => edge.source == node := by
  calc (graph.leaving node).map Prod.fst
      = (graph.edges.zipIdx.map Prod.fst).filter fun edge => edge.source == node := by
        rw [List.filter_map]
        rfl
    _ = graph.edges.filter fun edge => edge.source == node := by rw [List.zipIdx_map_fst]

/-- The numbers of the edges bring any thorough walk into the order of addition. -/
theorem mergeSort_walk (hwalk : Thorough walk) (graph : NumberedGraph) (node : Nat) :
    (walk graph node).mergeSort (fun first second => decide (first.2 ≤ second.2)) =
      graph.leaving node := by
  have hsorted := List.pairwise_mergeSort'
    (fun first second : KeyEdge × Nat => first.2 ≤ second.2) (walk graph node)
  refine List.Perm.eq_of_pairwise ?_ hsorted (graph.leaving_ascends node)
    ((List.mergeSort_perm _ _).trans (hwalk graph node))
  -- two edges of one number are one edge, so the numbers leave no choice of order
  intro first second hfirst hsecond hle hge
  have hnumber : first.2 = second.2 := Nat.le_antisymm hle hge
  have hfound := List.mem_zipIdx_iff_getElem?.mp (List.mem_of_mem_filter
    ((hwalk graph node).mem_iff.mp ((List.mergeSort_perm _ _).mem_iff.mp hfirst)))
  have hother := List.mem_zipIdx_iff_getElem?.mp (List.mem_of_mem_filter hsecond)
  rw [hnumber, hother] at hfound
  exact Prod.ext (Option.some.inj hfound).symm hnumber

/-- A table's keys are found by its name alone. -/
theorem outgoing_eq (hwalk : Thorough walk) (hconsistent : graph.Consistent) (table : String) :
    graph.outgoing walk table = graph.listed.outgoing table := by
  rw [KeyGraph.outgoing, listed, foreignKeys, List.filter_map]
  cases hnode : graph.node? table with
  | none =>
      rw [outgoing, hnode]
      refine (List.map_eq_nil_iff.mpr (List.filter_eq_nil_iff.mpr fun edge hedge howner => ?_)).symm
      have hsource := hconsistent.source edge hedge
      rw [beq_iff_eq.mp howner, hnode] at hsource
      cases hsource
  | some node =>
      rw [outgoing, hnode]
      dsimp only
      rw [mergeSort_walk hwalk, ← Function.comp_def KeyEdge.key, ← List.map_map, map_fst_leaving]
      congr 1
      refine List.filter_congr fun edge hedge => ?_
      have hsource := hconsistent.source edge hedge
      rw [Bool.eq_iff_iff, beq_iff_eq, Function.comp_apply, beq_iff_eq]
      refine ⟨?_, ?_⟩
      · rintro rfl
        have howner := (hconsistent.index _ _).mp hsource
        rw [(hconsistent.index _ _).mp hnode] at howner
        exact (Option.some.inj howner).symm
      · rintro rfl
        exact Option.some.inj (hsource.symm.trans hnode)

/-- Whether a key is there can be seen from its owner. -/
theorem outgoing_contains (hwalk : Thorough walk) (hconsistent : graph.Consistent)
    (key : ForeignKey) :
    (graph.outgoing walk key.table).contains key = true ↔ key ∈ graph.foreignKeys := by
  rw [List.contains_iff_mem, outgoing_eq hwalk hconsistent, KeyGraph.outgoing, List.mem_filter,
    beq_iff_eq, and_iff_left rfl]
  rfl

/-! ## One addition -/

theorem addTable_run (graph : NumberedGraph) (name : String) :
    (addTable name).run graph =
      match graph.node? name with
      | some node => (node, graph)
      | none =>
          (graph.nodes.length,
            { graph with
              nodes := graph.nodes ++ [name]
              index := (name, graph.nodes.length) :: graph.index }) := by
  have hget : (addTable name).run graph = (match graph.node? name with
    | some node => pure node
    | none => do
        modify fun later => { later with nodes := later.nodes ++ [name] }
        modify fun later => { later with index := (name, graph.nodes.length) :: later.index }
        return graph.nodes.length : StateM NumberedGraph Nat).run graph := rfl
  rw [hget]
  cases graph.node? name <;> rfl

theorem perform_table (walk : Walk) (graph : NumberedGraph) (name : String) :
    perform walk graph (.table name) = (.ok (), ((addTable name).run graph).2) :=
  rfl

theorem perform_key (walk : Walk) (graph : NumberedGraph) (key : ForeignKey) :
    perform walk graph (.key key) =
      match graph.node? key.table with
      | none => (.error (.unknownTable key.table), graph)
      | some source =>
          match graph.node? key.targetTable with
          | none => (.error (.danglingForeignKey key.table key.column key.targetTable), graph)
          | some target =>
              (.ok (), if (graph.outgoing walk key.table).contains key then graph
                else { graph with edges := graph.edges ++ [⟨source, target, key⟩] }) := by
  have hget : perform walk graph (.key key) = (match graph.node? key.table with
    | none => throw (.unknownTable key.table)
    | some source =>
        match graph.node? key.targetTable with
        | none => throw (.danglingForeignKey key.table key.column key.targetTable)
        | some target =>
            if (graph.outgoing walk key.table).contains key then pure ()
            else modify fun later =>
              { later with edges := later.edges ++ [⟨source, target, key⟩] } :
    ExceptT SchemaError (StateM NumberedGraph) Unit).run.run graph := rfl
  rw [hget]
  cases graph.node? key.table with
  | none => rfl
  | some source =>
      cases graph.node? key.targetTable with
      | none => rfl
      | some target =>
          dsimp only
          split <;> rfl

theorem Consistent.addTable (hconsistent : graph.Consistent) {name : String}
    (hnew : graph.node? name = none) :
    Consistent { graph with
      nodes := graph.nodes ++ [name]
      index := (name, graph.nodes.length) :: graph.index } := by
  have hfound : ∀ table, node? { graph with
        nodes := graph.nodes ++ [name]
        index := (name, graph.nodes.length) :: graph.index } table =
      if table = name then some graph.nodes.length else graph.node? table := by
    intro table
    rw [node?, List.lookup_cons]
    by_cases htable : table = name
    · rw [if_pos htable, beq_iff_eq.mpr htable]
    · rw [if_neg htable, beq_false_of_ne htable]
      rfl
  have hkept : ∀ {table node}, graph.node? table = some node → table ≠ name := by
    rintro table node hnode rfl
    rw [hnew] at hnode
    cases hnode
  refine ⟨fun table node => ?_, fun edge hedge => ?_, fun edge hedge => ?_⟩
  · have hlast : (graph.nodes ++ [name])[node]? = some table ↔
        graph.nodes[node]? = some table ∨ graph.nodes.length = node ∧ table = name := by
      grind
    rw [hfound, hlast, ← hconsistent.index]
    split
    · next htable => rw [htable, hnew, Option.some_inj, and_iff_left rfl, or_iff_right nofun]
    · next htable => rw [or_iff_left fun hlast => htable hlast.2]
  · rw [hfound, if_neg (hkept (hconsistent.source edge hedge)), hconsistent.source edge hedge]
  · rw [hfound, if_neg (hkept (hconsistent.target edge hedge)), hconsistent.target edge hedge]

theorem Consistent.addEdge (hconsistent : graph.Consistent) {key : ForeignKey} {source target : Nat}
    (hsource : graph.node? key.table = some source)
    (htarget : graph.node? key.targetTable = some target) :
    Consistent { graph with edges := graph.edges ++ [⟨source, target, key⟩] } where
  index := hconsistent.index
  source := List.forall_mem_append.mpr
    ⟨hconsistent.source, List.forall_mem_singleton.mpr hsource⟩
  target := List.forall_mem_append.mpr
    ⟨hconsistent.target, List.forall_mem_singleton.mpr htarget⟩

theorem listed_addEdge (source target : Nat) (key : ForeignKey) :
    listed { graph with edges := graph.edges ++ [⟨source, target, key⟩] } =
      { graph.listed with foreignKeys := graph.listed.foreignKeys ++ [key] } := by
  rw [listed, foreignKeys, List.map_append]
  rfl

/-- Adding a table changes the bare lists alike. -/
theorem addTable_listed (hconsistent : graph.Consistent) (name : String) :
    graph.listed.addTable name = ((addTable name).run graph).2.listed ∧
      ((addTable name).run graph).2.Consistent := by
  rw [addTable_run]
  cases hnode : graph.node? name with
  | some node =>
      have hknown := (hconsistent.mem_nodes_iff name).mpr ⟨node, hnode⟩
      exact ⟨if_pos (List.contains_iff_mem.mpr hknown), hconsistent⟩
  | none =>
      have hnew := hconsistent.node?_eq_none.mp hnode
      exact ⟨if_neg fun hknown => hnew (List.contains_iff_mem.mp hknown),
        hconsistent.addTable hnode⟩

/-- Adding a key changes the bare lists alike, or is refused for the same reason. -/
theorem perform_key_listed (hwalk : Thorough walk) (hconsistent : graph.Consistent)
    (key : ForeignKey) :
    graph.listed.perform (.key key) =
        ((perform walk graph (.key key)).1, (perform walk graph (.key key)).2.listed) ∧
      (perform walk graph (.key key)).2.Consistent := by
  have hfound : ∀ {table node}, graph.node? table = some node → table ∈ graph.listed.tables :=
    fun {table node} hnode => (hconsistent.mem_nodes_iff table).mpr ⟨node, hnode⟩
  have hmissing : ∀ {table}, graph.node? table = none → table ∉ graph.listed.tables :=
    hconsistent.node?_eq_none.mp
  have hknown : (graph.outgoing walk key.table).contains key = true ↔
      key ∈ graph.listed.foreignKeys := outgoing_contains hwalk hconsistent key
  rw [perform_key, KeyGraph.perform_key]
  cases hsource : graph.node? key.table with
  | none =>
      rw [if_neg (hmissing hsource)]
      exact ⟨rfl, hconsistent⟩
  | some source =>
      rw [if_pos (hfound hsource)]
      cases htarget : graph.node? key.targetTable with
      | none =>
          rw [if_neg (hmissing htarget)]
          exact ⟨rfl, hconsistent⟩
      | some target =>
          rw [if_pos (hfound htarget)]
          dsimp only
          by_cases hkey : key ∈ graph.listed.foreignKeys
          · rw [if_pos hkey, if_pos (hknown.mpr hkey)]
            exact ⟨rfl, hconsistent⟩
          · rw [if_neg hkey, if_neg (mt hknown.mp hkey), listed_addEdge]
            exact ⟨rfl, hconsistent.addEdge hsource htarget⟩

/-- An addition changes the bare lists alike, with the same outcome. -/
theorem perform_listed (hwalk : Thorough walk) (hconsistent : graph.Consistent)
    (addition : Addition) :
    graph.listed.perform addition =
        ((perform walk graph addition).1, (perform walk graph addition).2.listed) ∧
      (perform walk graph addition).2.Consistent := by
  cases addition with
  | table name =>
      obtain ⟨hlisted, hnext⟩ := addTable_listed hconsistent name
      rw [perform_table]
      exact ⟨Prod.ext rfl hlisted, hnext⟩
  | key key => exact perform_key_listed hwalk hconsistent key

/-- What is refused or is there already changes nothing. -/
theorem perform_of_settled (hwalk : Thorough walk) (hconsistent : graph.Consistent)
    {addition : Addition}
    (hsettled : (∃ problem, (perform walk graph addition).1 = .error problem) ∨
      (∃ name ∈ graph.nodes, addition = .table name) ∨
      ∃ key ∈ graph.foreignKeys, addition = .key key) :
    (perform walk graph addition).2 = graph := by
  obtain ⟨problem, hrefused⟩ | ⟨name, hname, rfl⟩ | ⟨key, hkey, rfl⟩ := hsettled
  · cases addition with
    | table name =>
        rw [perform_table] at hrefused
        cases hrefused
    | key key =>
        rw [perform_key] at hrefused ⊢
        cases hsource : graph.node? key.table with
        | none => rfl
        | some source =>
            cases htarget : graph.node? key.targetTable with
            | none => rfl
            | some target =>
                rw [hsource, htarget] at hrefused
                cases hrefused
  · obtain ⟨node, hnode⟩ := (hconsistent.mem_nodes_iff name).mp hname
    rw [perform_table, addTable_run, hnode]
  · obtain ⟨edge, hedge, rfl⟩ := List.mem_map.mp hkey
    rw [perform_key, hconsistent.source edge hedge, hconsistent.target edge hedge]
    exact if_pos ((outgoing_contains hwalk hconsistent edge.key).mpr hkey)

/-! ## All additions -/

/-- The keys that were added with success, in the order of the additions. -/
def brought (walk : Walk) : NumberedGraph → List Addition → List ForeignKey
  | _, [] => []
  | graph, addition :: rest =>
      let (outcome, next) := perform walk graph addition
      (addition.brought? outcome).toList ++ brought walk next rest

/-- What came so far is listed after any additions, by induction on these; the numbers have to be
consistent for a table's keys to be found. -/
theorem afterAll_lists (hwalk : Thorough walk) {names : List String} {keys : List ForeignKey} :
    ∀ {additions : List Addition} {graph : NumberedGraph}, graph.Consistent →
      graph.listed.Lists names keys →
      (afterAll walk graph additions).Consistent ∧
        (afterAll walk graph additions).listed.Lists
          (names ++ additions.filterMap Addition.name?) (keys ++ brought walk graph additions)
  | [], graph, hconsistent, hlists => by
      rw [List.filterMap_nil, brought, List.append_nil, List.append_nil]
      exact ⟨hconsistent, hlists⟩
  | addition :: rest, graph, hconsistent, hlists => by
      obtain ⟨hlisted, hnext⟩ := perform_listed hwalk hconsistent addition
      have hmore := hlists.perform addition
      rw [hlisted] at hmore
      have hrest : (afterAll walk (perform walk graph addition).2 rest).Consistent ∧ _ :=
        afterAll_lists hwalk hnext hmore
      have hnames : addition.name?.toList ++ rest.filterMap Addition.name? =
          (addition :: rest).filterMap Addition.name? := by
        cases addition <;> rfl
      rwa [List.append_assoc, List.append_assoc, hnames] at hrest

/-- A graph that is filled by any additions lists each table in the order in which it first came,
and each key in the order in which it was first added with success.  A table's keys are those of
the list, both ends of every key are there, and a key is refused just where one of them is not.
What is refused or is there already leaves the graph as it is. -/
theorem afterAll_answers (hwalk : Thorough walk) (additions : List Addition) :
    let graph := afterAll walk {} additions
    graph.nodes = (additions.filterMap Addition.name?).eraseDups ∧
    graph.foreignKeys = (brought walk {} additions).eraseDups ∧
    (∀ table, graph.contains table = true ↔ table ∈ graph.nodes) ∧
    (∀ table, graph.outgoing walk table =
      graph.foreignKeys.filter fun key => key.table == table) ∧
    (∀ key ∈ graph.foreignKeys, key.table ∈ graph.nodes ∧ key.targetTable ∈ graph.nodes) ∧
    (∀ key, (perform walk graph (.key key)).1 = .ok () ↔
      key.table ∈ graph.nodes ∧ key.targetTable ∈ graph.nodes) ∧
    (∀ addition,
      (∃ problem, (perform walk graph addition).1 = .error problem) ∨
        (∃ name ∈ graph.nodes, addition = .table name) ∨
        (∃ key ∈ graph.foreignKeys, addition = .key key) →
      (perform walk graph addition).2 = graph) := by
  intro graph
  obtain ⟨hconsistent, hlists⟩ : graph.Consistent ∧ graph.listed.Lists _ _ :=
    afterAll_lists hwalk .empty
      ⟨List.eraseDups_nil.symm, List.eraseDups_nil.symm, List.forall_mem_nil _⟩
  refine ⟨hlists.tables, hlists.foreignKeys, ?_, outgoing_eq hwalk hconsistent,
    ?_, ?_, fun addition => perform_of_settled hwalk hconsistent⟩
  · intro table
    rw [contains, Option.isSome_iff_exists, hconsistent.mem_nodes_iff]
  · intro key hkey
    obtain ⟨howner, htarget⟩ := hlists.ends key ((hlists.mem_foreignKeys key).mp hkey)
    exact ⟨(hlists.mem_tables _).mpr howner, (hlists.mem_tables _).mpr htarget⟩
  · intro key
    have hsame := (perform_listed hwalk hconsistent (.key key)).1
    rw [← congrArg Prod.fst hsame]
    exact KeyGraph.perform_key_ok_iff key

/-- A book is written by an author and stands on a shelf. -/
def writtenBy : ForeignKey :=
  ⟨"book", "author_id", "author", "id"⟩

def standsOn : ForeignKey :=
  ⟨"book", "shelf_id", "shelf", "id"⟩

/-- Both keys come once before the table that they reference and again after it. -/
def shelved : List Addition :=
  [.table "book", .key writtenBy, .table "author", .key writtenBy, .key standsOn, .table "shelf",
    .key standsOn, .key writtenBy, .table "book"]

theorem afterAll_answers_shelved :
    Thorough newestFirst ∧
    (afterAll newestFirst {} shelved).nodes = ["book", "author", "shelf"] ∧
    (afterAll newestFirst {} shelved).outgoing newestFirst "book" = [writtenBy, standsOn] ∧
    (perform newestFirst (afterAll newestFirst {} shelved) (.key writtenBy)).2 =
      afterAll newestFirst {} shelved := by
  obtain ⟨hnodes, hkeys, -, houtgoing, -, -, hsettled⟩ :=
    afterAll_answers thorough_newestFirst shelved
  have hbrought : brought newestFirst {} shelved = [writtenBy, standsOn, writtenBy] := by
    cbv
  rw [hbrought] at hkeys
  refine ⟨thorough_newestFirst, hnodes, ?_, hsettled _ (.inr (.inr ⟨_, ?_, rfl⟩))⟩
  · rw [houtgoing, hkeys]
    rfl
  · rw [hkeys]
    decide

end NumberedGraph

end TreeQuery.Catalog
