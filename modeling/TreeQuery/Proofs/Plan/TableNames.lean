import TreeQuery.Proofs.Plan.Scope

/-!
# The names of the tables of a query

A query has one table for each place that it joins, and the table is named by its place: by the
output name of the place when its step has a qualifier or label, and otherwise by the table
alone.  Whether all names are different is therefore decided by the places: a table that is
reached more than once needs qualifiers or labels, and these need output names that differ.
-/

namespace TreeQuery

open Catalog (Memo Schema)

namespace Path

/-- Whether a path ends in a step with a qualifier or label. -/
def isAliased (path : Path) : Bool :=
  match path.getLast? with
  | some step => step.isAliased
  | none => false

/-- The name of the table at the end of a path, among the tables of a query. -/
def reference (path : Path) : String :=
  if path.isAliased then path.outputName else path.tableName

theorem Legible.separable_tableName {path : Path} (hlegible : path.Legible) :
    Segments.Separable path.tableName.toList := by
  rw [tableName]
  split
  · next step hlast => exact (hlegible step (List.mem_of_getLast? hlast)).name.keyName.separable
  · exact Segments.Separable.nil

/-- The output name of a path with more than one step holds a separator. -/
theorem separator_infix_outputName {path : Path} (hdeep : 1 < path.length) :
    ['_', '_'] <:+: path.outputName.toList := by
  obtain ⟨first, second, rest, rfl⟩ : ∃ first second rest, path = first :: second :: rest := by
    match path, hdeep with
    | first :: second :: rest, _ => exact ⟨first, second, rest, rfl⟩
  rw [outputName, Segments.toList_join, List.map_cons, List.map_cons, List.map_cons,
    List.map_cons, List.intercalate_cons_cons, List.append_assoc]
  exact ⟨_, _, by rw [List.append_assoc]⟩

/-- Only an aliased path of one step can be named like the table of another path. -/
theorem outputName_ne_tableName {path other : Path} (hdeep : 1 < path.length)
    (hother : other.Legible) : path.outputName ≠ other.tableName := by
  intro hsame
  apply hother.separable_tableName.no_separator
  rw [← hsame]
  exact separator_infix_outputName hdeep

end Path

/-- The table at a place is the one that its last step names. -/
theorem tableRef?_table {schema : Schema} {path : Path} {table : Sql.TableRef}
    (htable : schema.tableRef? path = some table) : table.table = path.tableName := by
  obtain ⟨step, hstep, hrest⟩ := Option.bind_eq_some_iff.mp htable
  obtain ⟨definition, hdefinition, hrest⟩ := Option.bind_eq_some_iff.mp hrest
  obtain rfl := Option.some.inj hrest
  rw [Path.tableName, hstep]
  exact beq_iff_eq.mp (List.find?_some (p := fun table : Catalog.Table => table.name == step.name)
    hdefinition)

/-- The table at a place goes by the name of the place. -/
theorem Catalog.Schema.tableRef?_reference {schema : Schema} {place : Path} {table : Sql.TableRef}
    (htable : schema.tableRef? place = some table) : table.reference = place.reference := by
  obtain ⟨step, hstep, hrest⟩ := Option.bind_eq_some_iff.mp htable
  obtain ⟨definition, hdefinition, hrest⟩ := Option.bind_eq_some_iff.mp hrest
  obtain rfl := Option.some.inj hrest
  have hname : definition.name = step.name :=
    beq_iff_eq.mp (List.find?_some (p := fun table : Catalog.Table => table.name == step.name)
      hdefinition)
  rw [Path.reference, Path.isAliased, Path.tableName, hstep, Sql.TableRef.reference]
  dsimp only
  split
  · rfl
  · exact hname

namespace Plan

variable {root : Path} {places : List Path}

/-- A root and the places joined below it are told apart by the names of their tables: places
without qualifier and label differ in their tables, the others in their output names, and no
joined table has the name that the root is given. -/
structure ToldApart (root : Path) (places : List Path) : Prop where
  tables : ∀ first ∈ root :: places, ∀ second ∈ root :: places, first.isAliased = false →
    second.isAliased = false → first.tableName = second.tableName → first = second
  aliases : ∀ first ∈ root :: places, ∀ second ∈ root :: places, first.isAliased = true →
    second.isAliased = true → first.outputName = second.outputName → first = second
  root : root.isAliased = true →
    ∀ place ∈ places, place.isAliased = false → root.outputName ≠ place.tableName

theorem toldApart_iff (hlegible : ∀ place ∈ root :: places, place.Legible)
    (hdeep : ∀ place ∈ places, 1 < place.length) :
    (∀ first ∈ root :: places, ∀ second ∈ root :: places,
      first.reference = second.reference → first = second) ↔ ToldApart root places := by
  have haliased {place : Path} (halias : place.isAliased = true) :
      place.reference = place.outputName := by rw [Path.reference, if_pos halias]
  have hbare {place : Path} (halias : place.isAliased = false) :
      place.reference = place.tableName := by rw [Path.reference, if_neg (by simp [halias])]
  constructor
  · intro hnames
    refine ⟨?_, ?_, ?_⟩
    · intro first hfirst second hsecond hfirstBare hsecondBare hsame
      apply hnames first hfirst second hsecond
      rw [hbare hfirstBare, hbare hsecondBare, hsame]
    · intro first hfirst second hsecond hfirstAlias hsecondAlias hsame
      apply hnames first hfirst second hsecond
      rw [haliased hfirstAlias, haliased hsecondAlias, hsame]
    · intro hroot place hplace hplaceBare hsame
      have hplaceRoot : root = place := by
        apply hnames root List.mem_cons_self place (List.mem_cons_of_mem _ hplace)
        rw [haliased hroot, hbare hplaceBare, hsame]
      rw [hplaceRoot, hplaceBare] at hroot
      cases hroot
  · intro hapart
    -- an alias is no table's name, unless it is the root's
    have hmixed {first second : Path} (hfirst : first ∈ root :: places)
        (hsecond : second ∈ root :: places) (hfirstAlias : first.isAliased = true)
        (hsecondBare : second.isAliased = false) : first.outputName ≠ second.tableName := by
      rcases List.mem_cons.mp hfirst with rfl | hfirst
      · rcases List.mem_cons.mp hsecond with rfl | hsecond
        · rw [hsecondBare] at hfirstAlias
          cases hfirstAlias
        · exact hapart.root hfirstAlias second hsecond hsecondBare
      · exact Path.outputName_ne_tableName (hdeep first hfirst) (hlegible second hsecond)
    intro first hfirst second hsecond hsame
    cases hfirstAlias : first.isAliased with
    | true =>
        rw [haliased hfirstAlias] at hsame
        cases hsecondAlias : second.isAliased with
        | true =>
            rw [haliased hsecondAlias] at hsame
            exact hapart.aliases first hfirst second hsecond hfirstAlias hsecondAlias hsame
        | false =>
            rw [hbare hsecondAlias] at hsame
            exact absurd hsame (hmixed hfirst hsecond hfirstAlias hsecondAlias)
    | false =>
        rw [hbare hfirstAlias] at hsame
        cases hsecondAlias : second.isAliased with
        | true =>
            rw [haliased hsecondAlias] at hsame
            exact absurd hsame.symm (hmixed hsecond hfirst hsecondAlias hfirstAlias)
        | false =>
            rw [hbare hsecondAlias] at hsame
            exact hapart.tables first hfirst second hsecond hfirstAlias hsecondAlias hsame

theorem map_reference_eq {schema : Schema} {tables : List Sql.TableRef}
    (htables : List.Forall₂ (fun place table => schema.tableRef? place = some table)
      places tables) : tables.map Sql.TableRef.reference = places.map Path.reference := by
  induction htables with
  | nil => rfl
  | cons htable _ ih =>
      rw [List.map_cons, List.map_cons, Schema.tableRef?_reference htable, ih]

namespace Planner

variable {planner : Planner} {bucket : Bucket} {query : Sql.Query} {memo after : Memo}

/-- A query has the table at the root and those at the places joined below it, each place
once, and their names are all different exactly when the places are told apart. -/
theorem build_references_nodup_iff (hextensions : planner.extensions = [])
    (hkeys : planner.schema.LegibleKeys) (hnamed : bucket.Named LegibleName)
    (hexact : Memo.Exact planner.schema memo)
    (hrun : Succeeds (planner.build bucket) memo (.select query) after) :
    ∃ places, (∀ place, place ∈ places ↔
        JoinedBelow planner.schema bucket.rootPath bucket.elements place) ∧
      (bucket.rootPath :: places).Nodup ∧
      List.Forall₂ (fun place table => planner.schema.tableRef? place = some table)
        (bucket.rootPath :: places) query.sources ∧
      (query.references.Nodup ↔ ToldApart bucket.rootPath places) := by
  obtain ⟨gathered, places, table, hscoped, hplaces, hroot, htable, hjoins, -⟩ :=
    build_select hextensions hkeys hnamed hexact hrun
  have hchain := hscoped.joins
  have hsources : List.Forall₂ (fun place table => planner.schema.tableRef? place = some table)
      (bucket.rootPath :: places) query.sources := by
    rw [Sql.Query.sources, htable, hjoins, List.map_map]
    exact .cons hroot (List.forall₂_map_right_iff.mpr hchain.tables)
  refine ⟨places, hplaces, hchain.nodup, hsources, ?_⟩
  rw [Sql.Query.references, map_reference_eq hsources, List.nodup_map_iff_inj_on hchain.nodup]
  refine toldApart_iff (List.forall_mem_cons.mpr ⟨hnamed.rootPath, hchain.legible⟩) ?_
  intro place hplace
  exact hchain.length_lt place hplace

/-- Employees, each with a manager among them. -/
def managedEmployees : Schema where
  tables := [{ name := "employee", columns := ["id", "name", "manager_id"] }]
  graph :=
    { tables := ["employee"], foreignKeys := [⟨"employee", "manager_id", "employee", "id"⟩] }
  junctions := []

/-- Employees with their managers, and the managers of these. -/
def employeesByManager : Bucket where
  name := "employee"
  elements := [.item (.column "name"),
    .bucket { name := "employee", qualifier := some "manager", elements := [
      .item (.column "name"),
      .bucket { name := "employee", qualifier := some "manager" }] }]

theorem build_references_nodup_iff_managedEmployees :
    ∃ query after,
      Succeeds (build { schema := managedEmployees } employeesByManager) {} (.select query) after ∧
        query.references =
          ["employee", "employee__manager", "employee__manager__manager"] ∧
        ∃ places, (∀ place, place ∈ places ↔
            JoinedBelow managedEmployees employeesByManager.rootPath
              employeesByManager.elements place) ∧
          (employeesByManager.rootPath :: places).Nodup ∧
          List.Forall₂ (fun place table => managedEmployees.tableRef? place = some table)
            (employeesByManager.rootPath :: places) query.sources ∧
          (query.references.Nodup ↔ ToldApart employeesByManager.rootPath places) := by
  have hrun : ∃ query after,
      Succeeds (build { schema := managedEmployees } employeesByManager) {} (.select query) after ∧
        query.references =
          ["employee", "employee__manager", "employee__manager__manager"] := ⟨_, _, rfl, rfl⟩
  obtain ⟨query, after, hrun, hreferences⟩ := hrun
  have hkeys : managedEmployees.LegibleKeys := by decide
  have hnamed : employeesByManager.Named LegibleName := by decide
  exact ⟨query, after, hrun, hreferences,
    build_references_nodup_iff rfl hkeys hnamed (.empty _) hrun⟩

/-- Rooms of a floor and of the floor's house. -/
def houseFloors : Schema where
  tables := [
    { name := "room", columns := ["id", "floor_id"] },
    { name := "floor", columns := ["id", "house_id"] },
    { name := "house", columns := ["id"] }]
  graph :=
    { tables := ["room", "floor", "house"]
      foreignKeys := [⟨"room", "floor_id", "floor", "id"⟩, ⟨"floor", "house_id", "house", "id"⟩] }
  junctions := []

/-- Requests of which each joins two tables under one name: a table joined to itself, a table
reached along two paths, two labels that are the same, a root labelled as the table that is
joined to it, and a label that spells out a path below another label. -/
def clashingRequests : List (Schema × Bucket) := [
  (managedEmployees, { name := "employee", elements := [.item (.column "name"),
    .bucket { name := "employee" }] }),
  (peopledBooks, { name := "book", elements := [.item (.column "title"),
    .bucket { name := "person", qualifier := some "author", elements := [
      .bucket { name := "city" }] },
    .bucket { name := "person", qualifier := some "editor", elements := [
      .bucket { name := "city" }] }] }),
  (peopledBooks, { name := "book", elements := [.item (.column "title"),
    .bucket { name := "person", qualifier := some "author", label := some "maker" },
    .bucket { name := "person", qualifier := some "editor", label := some "maker" }] }),
  (peopledBooks, { name := "book", label := some "person", elements := [.item (.column "title"),
    .bucket { name := "person" }] }),
  (houseFloors, { name := "room", elements := [.item (.column "id"),
    .bucket { name := "floor", label := some "x__house" },
    .bucket { name := "floor", label := some "x", elements := [.bucket { name := "house" }] }] })]

/-- A request is planned as a query in which two tables go by one name. -/
def Clashes (request : Schema × Bucket) : Prop :=
  ∃ query after, Succeeds (build { schema := request.1 } request.2) {} (.select query) after ∧
    ¬ query.references.Nodup

/-- The names of the tables of a query need not be different. -/
theorem references_clash : clashingRequests.Forall Clashes := by
  refine ⟨?_, ?_, ?_, ?_, ?_⟩
  all_goals exact ⟨_, _, rfl, by decide⟩

end Planner

end Plan

end TreeQuery
