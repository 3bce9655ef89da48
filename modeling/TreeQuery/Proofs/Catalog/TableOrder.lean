import TreeQuery.Proofs.Catalog.BuiltTables
import TreeQuery.Proofs.Catalog.LinkAnswers
import TreeQuery.Proofs.Catalog.Transparency

/-!
# The order of the declared tables

Tables of different names may be declared in any order.  What a schema answers about a table
depends on this table and on all keys together, and what it answers about a link depends on the
keys of single tables, each in the order of its own declaration.  Only where several junctions
could be meant are they listed in the order of the tables.
-/

namespace TreeQuery.Catalog

/-- Two answers that differ at most in the order of the junctions that a refused link lists. -/
inductive Answer.Alike : Answer → Answer → Prop
  | same (answer : Answer) : Alike answer answer
  | link {found other : Except SchemaError (Option Link)} (halike : AlikeLinks found other) :
      Alike (.link found) (.link other)

variable {declarations reordered : Declarations} {schema other : Schema}
  {tables others : List Table} {name : String}

namespace Schema

/-- The answer to a question when nothing is remembered. -/
def freshAnswer (schema : Schema) (question : Question) : Answer :=
  Id.run ((schema.ask question).run' {})

theorem freshAnswer_eq (schema : Schema) (question : Question) :
    schema.freshAnswer question = schema.answer question := by
  cases question with
  | table path =>
      obtain ⟨after, hrun, -⟩ := @table?_run (fun _ => True) schema path trivial {}
      change Answer.table (Id.run ((schema.table? path).run {})).1 = _
      rw [hrun]
      rfl
  | column address =>
      obtain ⟨after, hrun, -⟩ := @column?_run (fun _ => True) schema address trivial {}
      change Answer.column (Id.run ((schema.column? address).run {})).1 = _
      rw [hrun]
      rfl
  | link source target => exact congrArg Answer.link (schema.freshLink_eq source target)

end Schema

/-! ## Tables -/

theorem find?_name_eq_some_iff (hnames : (tables.map Table.name).Nodup) {table : Table} :
    (tables.find? fun table => table.name == name) = some table ↔
      table ∈ tables ∧ table.name = name := by
  constructor
  · intro hfound
    have hname := List.find?_some hfound
    exact ⟨List.mem_of_find?_eq_some hfound, beq_iff_eq.mp hname⟩
  · rintro ⟨htable, rfl⟩
    have hsome : (tables.find? fun other => other.name == table.name).isSome = true :=
      List.find?_isSome.mpr ⟨table, htable, beq_self_eq_true _⟩
    obtain ⟨found, hfound⟩ := Option.isSome_iff_exists.mp hsome
    have hname := List.find?_some hfound
    rw [hfound, List.inj_on_of_nodup_map hnames (List.mem_of_find?_eq_some hfound) htable
      (beq_iff_eq.mp hname)]

/-- Among tables of different names each is found wherever it stands. -/
theorem find?_name_perm (hnames : (tables.map Table.name).Nodup) (hperm : others.Perm tables)
    (name : String) :
    (others.find? fun table => table.name == name) =
      tables.find? fun table => table.name == name := by
  have hothers : (others.map Table.name).Nodup := (hperm.map Table.name).nodup_iff.mpr hnames
  ext table
  rw [find?_name_eq_some_iff hothers, find?_name_eq_some_iff hnames, hperm.mem_iff]

theorem rel_find? {α β : Type} {related : α → β → Prop} {test : α → Bool} {check : β → Bool}
    (hsame : ∀ entry other, related entry other → test entry = check other) {entries : List α}
    {partners : List β} (hrelated : List.Forall₂ related entries partners) :
    Option.Rel related (entries.find? test) (partners.find? check) := by
  induction hrelated with
  | nil => exact .none
  | @cons entry partner _ _ hfirst _ ih =>
      rw [List.find?_cons, List.find?_cons, hsame entry partner hfirst]
      split
      · exact .some hfirst
      · exact ih

/-- A built schema finds each table as it was completed. -/
theorem rel_tableNamed? (hnames : declarations.tableNames.Nodup)
    (hbuilt : declarations.build = .ok schema) (name : String) :
    Option.Rel declarations.Completes
      (declarations.tables.find? fun table => table.name == name) (schema.tableNamed? name) :=
  rel_find? (fun _ _ hcompletes => by rw [hcompletes.name])
    (Declarations.forall₂_completes hnames hbuilt)

/-- Two tables of one name and place that list the same columns. -/
structure Table.Agrees (table other : Table) : Prop where
  name : table.name = other.name
  schema : table.schema = other.schema
  hasColumn : ∀ column, table.hasColumn column = other.hasColumn column

/-- Two schemas that have the same tables, with the same columns. -/
def Schema.TablesAgree (schema other : Schema) : Prop :=
  ∀ name, Option.Rel Table.Agrees (schema.tableNamed? name) (other.tableNamed? name)

theorem exists_of_rel {α β : Type} {related : α → β → Prop} {entry : Option α} {partner : Option β}
    (hrelated : Option.Rel related entry partner) :
    entry = none ∧ partner = none ∨
      ∃ found other, entry = some found ∧ partner = some other ∧ related found other := by
  cases hrelated with
  | none => exact .inl ⟨rfl, rfl⟩
  | some hfound => exact .inr ⟨_, _, rfl, rfl, hfound⟩

namespace Schema

theorem TablesAgree.tableRef? (hagree : schema.TablesAgree other) (path : Path) :
    schema.tableRef? path = other.tableRef? path := by
  rw [Schema.tableRef?, Schema.tableRef?]
  cases path.getLast? with
  | none => rfl
  | some step =>
      rw [Option.bind_eq_bind, Option.bind_some, Option.bind_eq_bind, Option.bind_some]
      obtain ⟨hnone, hother⟩ | ⟨definition, partner, hsome, hother, hsame⟩ :=
        exists_of_rel (hagree step.name)
      · rw [hnone, hother]
      · rw [hsome, hother, Option.bind_some, Option.bind_some, hsame.schema, hsame.name]

theorem TablesAgree.hasColumn (hagree : schema.TablesAgree other) (table column : String) :
    schema.hasColumn table column = other.hasColumn table column := by
  rw [Schema.hasColumn, Schema.hasColumn]
  obtain ⟨hnone, hother⟩ | ⟨definition, partner, hsome, hother, hsame⟩ :=
    exists_of_rel (hagree table)
  · rw [hnone, hother]
  · rw [hsome, hother]
    exact hsame.hasColumn column

theorem TablesAgree.columnRef? (hagree : schema.TablesAgree other) (address : Address) :
    schema.columnRef? address = other.columnRef? address := by
  rw [Schema.columnRef?, Schema.columnRef?, hagree.hasColumn, hagree.tableRef?]

end Schema

namespace Declarations

/-! ## Links -/

/-- The same links are found, or refused for the same reason, wherever the same are determined. -/
theorem LinkAlike.linkBetween (halike : LinkAlike declarations reordered)
    (hbuilds : declarations.Builds schema) (hothers : reordered.Builds other)
    (source target : Path) :
    AlikeLinks (schema.linkBetween source target) (other.linkBetween source target) := by
  by_cases hempty : source = [] ∨ target = []
  · rw [Schema.linkBetween_of_empty hempty, Schema.linkBetween_of_empty hempty]
    exact .same _
  obtain ⟨hsource, htarget⟩ := not_or.mp hempty
  obtain ⟨sourceStep, hsourceStep⟩ := exists_endsIn hsource
  obtain ⟨targetStep, htargetStep⟩ := exists_endsIn htarget
  have hasked : Asked declarations schema source target sourceStep targetStep :=
    ⟨hbuilds, hsourceStep, htargetStep⟩
  have hothersAsked : Asked reordered other source target sourceStep targetStep :=
    ⟨hothers, hsourceStep, htargetStep⟩
  obtain ⟨link, hlink⟩ | hundetermined := hasked.determines_or_undetermined
  · rw [hasked.linkBetween_of_determines hlink,
      hothersAsked.linkBetween_of_determines (halike.determines hlink)]
    exact .same _
  · have hnone := hasked.undetermined_linkBetween_iff.mp hundetermined
    have hothersNone : ∀ link, ¬ reordered.Determines source target link :=
      fun link hlink => hnone link (halike.symm.determines hlink)
    exact halike.undetermined hbuilds.distinct hothers.distinct hundetermined
      (hothersAsked.undetermined_linkBetween_iff.mpr hothersNone)

/-! ## Reordered tables -/

/-- The same declarations, but for the order of the tables. -/
structure Reorders (declarations reordered : Declarations) : Prop where
  tables : reordered.tables.Perm declarations.tables
  customKeys : reordered.customKeys = declarations.customKeys
  junctions : reordered.junctions = declarations.junctions

namespace Reorders

variable (hreorders : declarations.Reorders reordered)
include hreorders

theorem tableNames_perm : reordered.tableNames.Perm declarations.tableNames :=
  hreorders.tables.map Table.name

theorem foreignKeys_perm : reordered.foreignKeys.Perm declarations.foreignKeys := by
  rw [foreignKeys, foreignKeys, hreorders.customKeys]
  exact (hreorders.tables.flatMap_right Table.foreignKeys).append_right declarations.customKeys

theorem nodup_tableNames (hnames : declarations.tableNames.Nodup) : reordered.tableNames.Nodup :=
  hreorders.tableNames_perm.nodup_iff.mpr hnames

theorem linkAlike (hnames : declarations.tableNames.Nodup) : LinkAlike declarations reordered := by
  refine ⟨fun name => ?_, hreorders.junctions.symm⟩
  by_cases hname : name ∈ declarations.tableNames
  · obtain ⟨table, htable, rfl⟩ := List.mem_map.mp hname
    rw [keysOf_of_mem hnames htable,
      keysOf_of_mem (hreorders.nodup_tableNames hnames) (hreorders.tables.mem_iff.mpr htable),
      hreorders.customKeys]
  · rw [keysOf_of_not_mem hname,
      keysOf_of_not_mem (mt hreorders.tableNames_perm.mem_iff.mp hname), hreorders.customKeys]

/-- A table is completed alike by either declarations. -/
theorem agrees (hnames : declarations.tableNames.Nodup) {table definition partner : Table}
    (hcompletes : declarations.Completes table definition)
    (hothers : reordered.Completes table partner) : definition.Agrees partner := by
  refine ⟨hcompletes.name.trans hothers.name.symm, hcompletes.schema.trans hothers.schema.symm,
    fun column => ?_⟩
  rw [Bool.eq_iff_iff, hcompletes.hasColumn, hothers.hasColumn, (hreorders.linkAlike hnames).keysOf]
  simp only [hreorders.foreignKeys_perm.mem_iff]

theorem tablesAgree (hnames : declarations.tableNames.Nodup)
    (hbuilt : declarations.build = .ok schema) (hothers : reordered.build = .ok other) :
    schema.TablesAgree other := by
  intro name
  have hfound := rel_tableNamed? hnames hbuilt name
  have hpartner := rel_tableNamed? (hreorders.nodup_tableNames hnames) hothers name
  rw [find?_name_perm hnames hreorders.tables] at hpartner
  generalize (declarations.tables.find? fun table => table.name == name) = table at hfound hpartner
  generalize schema.tableNamed? name = definition at hfound ⊢
  generalize other.tableNamed? name = partner at hpartner ⊢
  cases hfound with
  | none =>
      cases hpartner
      exact .none
  | some hcompletes =>
      cases hpartner with
      | some hothers => exact .some (hreorders.agrees hnames hcompletes hothers)

theorem exists_build_iff (hnames : declarations.tableNames.Nodup) :
    (∃ schema, declarations.build = .ok schema) ↔ ∃ schema, reordered.build = .ok schema := by
  rw [Declarations.exists_build_iff hnames,
    Declarations.exists_build_iff (hreorders.nodup_tableNames hnames), hreorders.junctions]
  simp only [ForeignKey.Within, hreorders.foreignKeys_perm.mem_iff,
    hreorders.tableNames_perm.mem_iff]

theorem answer_alike (hnames : declarations.tableNames.Nodup)
    (hbuilt : declarations.build = .ok schema) (hothers : reordered.build = .ok other)
    (question : Question) : (schema.answer question).Alike (other.answer question) := by
  have hagree := hreorders.tablesAgree hnames hbuilt hothers
  cases question with
  | table path =>
      rw [Schema.answer, Schema.answer, hagree.tableRef?]
      exact .same _
  | column address =>
      rw [Schema.answer, Schema.answer, hagree.columnRef?]
      exact .same _
  | link source target =>
      exact .link ((hreorders.linkAlike hnames).linkBetween (builds_of_build hnames hbuilt)
        (builds_of_build (hreorders.nodup_tableNames hnames) hothers) source target)

end Reorders

/-- Tables of different names may be declared in any order: the declarations can be built in one
order just where they can in another, and a schema that was not asked before answers every
question alike, but for the order in which a refused link lists several junctions. -/
theorem build_tables_perm (hnames : declarations.tableNames.Nodup)
    (hperm : tables.Perm declarations.tables) :
    ((∃ schema, declarations.build = .ok schema) ↔
        ∃ other, { declarations with tables : Declarations }.build = .ok other) ∧
      ∀ schema other, declarations.build = .ok schema →
        { declarations with tables : Declarations }.build = .ok other →
          ∀ question, (schema.freshAnswer question).Alike (other.freshAnswer question) := by
  have hreorders : declarations.Reorders { declarations with tables } := ⟨hperm, rfl, rfl⟩
  refine ⟨hreorders.exists_build_iff hnames, fun schema other hbuilt hothers question => ?_⟩
  rw [schema.freshAnswer_eq, other.freshAnswer_eq]
  exact hreorders.answer_alike hnames hbuilt hothers question

/-- Books that readers borrow or reserve. -/
def circulation : Declarations where
  tables :=
    [{ name := "book", columns := ["id", "title"] },
      { name := "reader", columns := ["id"] },
      { name := "loan", references := [⟨"book_id", "book", "id"⟩, ⟨"reader_id", "reader", "id"⟩] },
      { name := "reservation", references := [⟨"reader_id", "reader", "code"⟩] }]
  customKeys := [⟨"reservation", "book_id", "book", "id"⟩]

theorem build_tables_perm_circulation :
    circulation.tableNames.Nodup ∧ circulation.tables.reverse.Perm circulation.tables ∧
      ∃ schema other, circulation.build = .ok schema ∧
        { circulation with tables := circulation.tables.reverse }.build = .ok other ∧
        schema.freshAnswer (.link [{ name := "reader" }] [{ name := "book" }]) =
          .link (.error (.ambiguousJunction "reader" "book" ["loan", "reservation"])) ∧
        other.freshAnswer (.link [{ name := "reader" }] [{ name := "book" }]) =
          .link (.error (.ambiguousJunction "reader" "book" ["reservation", "loan"])) ∧
        other.freshAnswer (.column ⟨"code", [{ name := "reader" }]⟩) =
          .column (some ⟨⟨none, "reader", none⟩, "code", "code"⟩) ∧
        ∀ question, (schema.freshAnswer question).Alike (other.freshAnswer question) := by
  have hnames : circulation.tableNames.Nodup := by decide
  have hperm : circulation.tables.reverse.Perm circulation.tables := List.reverse_perm _
  obtain ⟨-, halike⟩ := build_tables_perm hnames hperm
  have hbuilt : ∃ schema, circulation.build = .ok schema ∧
      schema.freshAnswer (.link [{ name := "reader" }] [{ name := "book" }]) =
        .link (.error (.ambiguousJunction "reader" "book" ["loan", "reservation"])) :=
    ⟨_, rfl, rfl⟩
  have hother : ∃ other,
      { circulation with tables := circulation.tables.reverse }.build = .ok other ∧
        other.freshAnswer (.link [{ name := "reader" }] [{ name := "book" }]) =
          .link (.error (.ambiguousJunction "reader" "book" ["reservation", "loan"])) ∧
        other.freshAnswer (.column ⟨"code", [{ name := "reader" }]⟩) =
          .column (some ⟨⟨none, "reader", none⟩, "code", "code"⟩) :=
    ⟨_, rfl, rfl, rfl⟩
  obtain ⟨schema, hschema, hlink⟩ := hbuilt
  obtain ⟨other, hreversed, hotherLink, hcolumn⟩ := hother
  exact ⟨hnames, hperm, schema, other, hschema, hreversed, hlink, hotherLink, hcolumn,
    halike schema other hschema hreversed⟩

end Declarations

end TreeQuery.Catalog
