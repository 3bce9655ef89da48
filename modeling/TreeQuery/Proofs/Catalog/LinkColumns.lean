import TreeQuery.Proofs.Catalog.DeterminedLinks

/-!
# The columns of a link

The columns that a link equates are columns of keys, and a built schema lists these.  So every
column of a link is found, and a schema that was not asked before answers with the link that its
declarations determine.
-/

namespace TreeQuery.Catalog

/-- The columns that a link equates. -/
def Link.addresses : Link → List Address
  | manyToOne source target => [source, target]
  | oneToMany source target => [source, target]
  | manyToMany source interimSource interimTarget target =>
      [source, interimSource, interimTarget, target]

namespace Schema

variable {schema : Schema} {path : Path} {step : Step} {name : String}

/-- A column is found whatever is remembered, and belongs to its path's table when nothing
is. -/
structure Resolves (schema : Schema) (address : Address) : Prop where
  found : ∀ memo, ∃ column after, Succeeds (schema.column address) memo column after
  fresh : ∃ table after, schema.tableRef? address.path = some table ∧
    table.table = address.path.tableName ∧
    Succeeds (schema.column address) {} ⟨table, address.name, address.resultName⟩ after

theorem exists_tableRef? (hends : Declarations.EndsIn path step)
    (hcolumn : schema.hasColumn path.tableName name = true) :
    ∃ table, schema.tableRef? path = some table ∧ table.table = path.tableName := by
  rw [hasColumn] at hcolumn
  split at hcolumn
  · cases hcolumn
  · next definition hdefinition =>
      have hname := List.find?_some hdefinition
      rw [hends.tableName] at hdefinition
      refine ⟨⟨definition.schema, definition.name,
        if step.isAliased then some path.outputName else none⟩, ?_, beq_iff_eq.mp hname⟩
      simp only [tableRef?, hends.last, hdefinition, Option.bind_eq_bind, Option.bind_some]
      rfl

theorem resolves_of_hasColumn (hends : Declarations.EndsIn path step)
    (hcolumn : schema.hasColumn path.tableName name = true) : schema.Resolves ⟨name, path⟩ := by
  obtain ⟨table, htable, hname⟩ := exists_tableRef? hends hcolumn
  have hanswer : ∀ memo, ∃ column, schema.columnAnswer? memo ⟨name, path⟩ = some column := by
    intro memo
    rw [columnAnswer?, if_pos hcolumn, tableAnswer?, htable]
    cases List.lookup (Address.mk name path).key memo.columns <;>
      cases List.lookup path.key memo.tables <;> exact ⟨_, rfl⟩
  constructor
  · intro memo
    obtain ⟨column, hcolumn⟩ := hanswer memo
    exact ⟨column, column_gives hcolumn⟩
  · have hfresh : schema.columnAnswer? {} ⟨name, path⟩ =
        some ⟨table, name, Address.resultName ⟨name, path⟩⟩ := by
      rw [columnAnswer?, if_pos hcolumn, tableAnswer?, htable]
      rfl
    obtain ⟨after, hafter⟩ := column_gives hfresh
    exact ⟨table, after, htable, hname, hafter⟩

/-- The answer for a link when nothing is remembered. -/
def freshLink (schema : Schema) (source target : Path) : Except SchemaError (Option Link) :=
  Id.run ((schema.link? source target).run.run' {})

theorem freshLink_eq (schema : Schema) (source target : Path) :
    schema.freshLink source target = schema.linkBetween source target := by
  have hget : Id.run ((get : Lookup SchemaError Memo).run.run {}) = (.ok {}, {}) := rfl
  have hrun : schema.freshLink source target =
      (Id.run ((schema.link? source target).run.run {})).1 := rfl
  rw [hrun, link?, run_bind, hget]
  rcases schema.linkBetween source target with problem | _ | link <;> rfl

end Schema

namespace Declarations

variable {declarations : Declarations} {schema : Schema} {source target : Path}
  {sourceStep targetStep : Step} {key : ForeignKey} {table : String}

theorem Builds.hasColumn_owner (hbuilds : declarations.Builds schema)
    (hkey : key ∈ declarations.keysOf table) : schema.hasColumn table key.column = true := by
  obtain ⟨hmember, rfl⟩ := mem_keysOf.mp hkey
  exact hbuilds.owners key hmember

theorem Builds.hasColumn_target (hbuilds : declarations.Builds schema)
    (hkey : key ∈ declarations.keysOf table) {qualifier : Option String} {other : String}
    (hinto : key.Into other qualifier) : schema.hasColumn other key.targetColumn = true := by
  rw [← hinto.1]
  exact hbuilds.targets key (mem_keysOf.mp hkey).1

namespace Asked

variable (hasked : Asked declarations schema source target sourceStep targetStep)
include hasked

theorem resolves_of_bridges {interim : String} {toSource toTarget : ForeignKey}
    (hbridges : declarations.Bridges source target interim toSource toTarget) :
    ∀ address ∈ (Schema.junctionLink source target interim toSource toTarget).addresses,
      schema.Resolves address := by
  obtain ⟨hfirst, hsecond⟩ := hbridges
  have hjunction : EndsIn [{ name := interim }] { name := interim } := ⟨rfl, rfl, rfl⟩
  rw [Schema.junctionLink, Link.addresses, List.forall_mem_cons, List.forall_mem_cons,
    List.forall_mem_cons, List.forall_mem_singleton]
  refine ⟨?_, ?_, ?_, ?_⟩
  · exact Schema.resolves_of_hasColumn hasked.source
      (hasked.builds.hasColumn_target hsecond.mem hsecond.holds.1)
  · exact Schema.resolves_of_hasColumn hjunction (hasked.builds.hasColumn_owner hsecond.mem)
  · exact Schema.resolves_of_hasColumn hjunction (hasked.builds.hasColumn_owner hfirst.mem)
  · exact Schema.resolves_of_hasColumn hasked.target
      (hasked.builds.hasColumn_target hfirst.mem hfirst.holds)

/-- Every column of a link that is determined is found. -/
theorem resolves_of_determines {link : Link}
    (hlink : declarations.Determines source target link) :
    ∀ address ∈ link.addresses, schema.Resolves address := by
  cases hlink with
  | manyToOne hkey =>
      rw [Link.addresses, List.forall_mem_cons, List.forall_mem_singleton]
      constructor
      · exact Schema.resolves_of_hasColumn hasked.source (hasked.builds.hasColumn_owner hkey.mem)
      · exact Schema.resolves_of_hasColumn hasked.target
          (hasked.builds.hasColumn_target hkey.mem hkey.holds)
  | oneToMany hthere hkey =>
      rw [Link.addresses, List.forall_mem_cons, List.forall_mem_singleton]
      constructor
      · exact Schema.resolves_of_hasColumn hasked.source
          (hasked.builds.hasColumn_target hkey.mem hkey.holds)
      · exact Schema.resolves_of_hasColumn hasked.target (hasked.builds.hasColumn_owner hkey.mem)
  | chosen hapart hchosen hbridges => exact hasked.resolves_of_bridges hbridges
  | only hapart hchosen hcandidate honly hbridges => exact hasked.resolves_of_bridges hbridges

end Asked

end Declarations

namespace Schema

variable {declarations : Declarations} {schema : Schema} {source target : Path}

/-- Tables of different names, and two paths that lead somewhere: the answer is a link if and only
if the declarations determine it, the answers without a link are given if and only if they
determine none, and every column of a link is found. -/
theorem freshLink_of_build (hnames : declarations.tableNames.Nodup)
    (hbuilt : declarations.build = .ok schema) (hsource : source ≠ []) (htarget : target ≠ []) :
    (∀ link, schema.freshLink source target = .ok (some link) ↔
      declarations.Determines source target link) ∧
    (declarations.Undetermined source target (schema.freshLink source target) ↔
      ∀ link, ¬ declarations.Determines source target link) ∧
    ∀ link, schema.freshLink source target = .ok (some link) →
      ∀ address ∈ link.addresses, schema.Resolves address := by
  obtain ⟨sourceStep, hsource⟩ := Declarations.exists_endsIn hsource
  obtain ⟨targetStep, htarget⟩ := Declarations.exists_endsIn htarget
  have hasked : declarations.Asked schema source target sourceStep targetStep :=
    ⟨Declarations.builds_of_build hnames hbuilt, hsource, htarget⟩
  rw [freshLink_eq]
  refine ⟨fun _ => hasked.linkBetween_eq_some_iff, hasked.undetermined_linkBetween_iff, ?_⟩
  intro link hlink
  exact hasked.resolves_of_determines (hasked.linkBetween_eq_some_iff.mp hlink)

/-- Books with tags, and with an editor by a key that their table does not declare. -/
def taggedBooks : Declarations where
  tables :=
    [{ name := "author" },
      { name := "book", references := [⟨"author_id", "author", "id"⟩] },
      { name := "tag" },
      { name := "book_tag", references := [⟨"book_id", "book", "id"⟩, ⟨"tag_id", "tag", "id"⟩] }]
  customKeys := [⟨"book", "editor_id", "author", "id"⟩]

/-- The schema of the books, in which the columns of all keys are listed. -/
def taggedSchema : Schema where
  tables :=
    [{ name := "author", columns := ["id"] },
      { name := "book", columns := ["author_id", "editor_id", "id"],
        references := [⟨"author_id", "author", "id"⟩] },
      { name := "tag", columns := ["id"] },
      { name := "book_tag", columns := ["book_id", "tag_id"],
        references := [⟨"book_id", "book", "id"⟩, ⟨"tag_id", "tag", "id"⟩] }]
  graph :=
    { tables := ["author", "book", "tag", "book_tag"]
      foreignKeys := [⟨"book", "author_id", "author", "id"⟩, ⟨"book_tag", "book_id", "book", "id"⟩,
        ⟨"book_tag", "tag_id", "tag", "id"⟩, ⟨"book", "editor_id", "author", "id"⟩] }
  junctions := []

theorem freshLink_of_build_taggedBooks :
    let book : Path := [{ name := "book" }]
    let editor : Path := book.child { name := "author", qualifier := some "editor" }
    let tag : Path := book.child { name := "tag" }
    taggedBooks.tableNames.Nodup ∧ taggedBooks.build = .ok taggedSchema ∧
      taggedBooks.Determines book editor (.manyToOne ⟨"editor_id", book⟩ ⟨"id", editor⟩) ∧
      taggedBooks.Determines book tag (.manyToMany ⟨"id", book⟩
        ⟨"book_id", [{ name := "book_tag" }]⟩ ⟨"tag_id", [{ name := "book_tag" }]⟩ ⟨"id", tag⟩) ∧
      (∀ link, ¬ taggedBooks.Determines tag editor link) ∧
      taggedSchema.Resolves ⟨"editor_id", book⟩ := by
  intro book editor tag
  have hnames : taggedBooks.tableNames.Nodup := by decide
  have hbuilt : taggedBooks.build = .ok taggedSchema := by rfl
  have hbook : book ≠ [] := List.cons_ne_nil _ _
  have heditor : editor ≠ [] := List.cons_ne_nil _ _
  have htag : tag ≠ [] := List.cons_ne_nil _ _
  obtain ⟨hdirect, -, hcolumns⟩ := freshLink_of_build hnames hbuilt hbook heditor
  obtain ⟨hjunction, -, -⟩ := freshLink_of_build hnames hbuilt hbook htag
  obtain ⟨hnone, -, -⟩ := freshLink_of_build hnames hbuilt htag heditor
  refine ⟨hnames, hbuilt, (hdirect _).mp rfl, (hjunction _).mp rfl, ?_, ?_⟩
  · intro link hlink
    have hanswer : taggedSchema.freshLink tag editor = .ok none := rfl
    cases hanswer.symm.trans ((hnone link).mpr hlink)
  · exact hcolumns _ rfl ⟨"editor_id", book⟩ List.mem_cons_self

end Schema

end TreeQuery.Catalog
