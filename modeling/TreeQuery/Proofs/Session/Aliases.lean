import TreeQuery.Proofs.Session.StatementCount

/-!
# Aliases and paths

The planner names a column by the output names of the buckets it is nested in, joined.
Reading a row back splits these names again, and finds the records under which children
are attached by the paths that preparing a bucket has recorded.  Both go by the same
output names, so every alias leads to the object it was made for.
-/

namespace TreeQuery.Session

open Catalog (Link Memo ResolvedColumn Schema)

/-! ## Columns in the order of a walk -/

/-- A column that is asked for: the output names that lead to its bucket, the place of the
bucket, and its own name. -/
structure AskedColumn where
  path : List String
  place : Path
  name : String

mutual

/-- The columns that a bucket and the buckets joined to it ask for. -/
def askedColumns (schema : Schema) (place : Path) (path : List String) :
    Bucket → List AskedColumn
  | ⟨_, _, _, elements⟩ => askedColumnsOfElements schema place path elements

/-- The columns that elements and the buckets joined to them ask for. -/
def askedColumnsOfElements (schema : Schema) (place : Path) (path : List String) :
    List Element → List AskedColumn
  | [] => []
  | .item (.column name) :: rest =>
      ⟨path, place, name⟩ :: askedColumnsOfElements schema place path rest
  | .bucket nested :: rest =>
      (if readsLater schema place nested then []
        else askedColumns schema (place.child nested.step) (path ++ [nested.outputName]) nested) ++
        askedColumnsOfElements schema place path rest
  | .item (.row _) :: rest => askedColumnsOfElements schema place path rest
  | .clause _ :: rest => askedColumnsOfElements schema place path rest
  | .slice _ :: rest => askedColumnsOfElements schema place path rest
  | .total :: rest => askedColumnsOfElements schema place path rest
  | .beacon _ :: rest => askedColumnsOfElements schema place path rest

end

/-- A select item stands for a column that is asked for: it refers to the column in the
table of its place, and its alias reads back as the path and the name of the column. -/
structure AskedColumn.SelectedBy (schema : Schema) (asked : AskedColumn)
    (item : Sql.SelectItem) : Prop where
  expression : ∃ table, schema.tableRef? asked.place = some table ∧
    item.expression = .ofTable table.reference asked.name
  aliasName : item.aliasName = some (Address.resultName ⟨asked.name, asked.place⟩)
  readsBack : Segments.ofString (Address.resultName ⟨asked.name, asked.place⟩) =
    asked.path ++ [asked.name]

/-! ## Places that output names lead to -/

/-- A place is led to by the output names of its steps below the root. -/
def LedToBy (place : Path) (path : List String) : Prop :=
  ∃ root steps, place = root :: steps ∧ path = steps.map Step.outputName ∧
    ∀ step ∈ steps, step.Plain

variable {schema : Schema} {memo : Memo} {place : Path} {path : List String} {name : String}
  {elements : List Element} {bucket nested : Bucket}

theorem LedToBy.child (hled : LedToBy place path) (hstep : nested.step.Plain) :
    LedToBy (place.child nested.step) (path ++ [nested.outputName]) := by
  obtain ⟨root, steps, rfl, rfl, hsteps⟩ := hled
  refine ⟨root, steps ++ [nested.step], rfl, ?_, ?_⟩
  · rw [List.map_append]
    rfl
  · exact List.forall_mem_append.mpr ⟨hsteps, List.forall_mem_singleton.mpr hstep⟩

/-- An alias is split into the output names it was joined from. -/
theorem LedToBy.ofString_resultName (hled : LedToBy place path) (hname : PlainName name) :
    Segments.ofString (Address.resultName ⟨name, place⟩) = path ++ [name] := by
  obtain ⟨root, steps, rfl, rfl, hsteps⟩ := hled
  rw [Address.resultName_eq_join]
  exact Address.ofString_join_outputNames hsteps hname

theorem askedColumns_eq (schema : Schema) (place : Path) (path : List String) (bucket : Bucket) :
    askedColumns schema place path bucket =
      askedColumnsOfElements schema place path bucket.elements := by
  cases bucket
  rw [askedColumns]

/-- What is gathered for elements are the columns they ask for, in order. -/
theorem gathers_selectedBy (hfaithful : Memo.Faithful schema memo) (hplain : PlainElements elements)
    (hplace : Path.Plain place) (hled : LedToBy place path) {columns : List ResolvedColumn}
    (hgathers : Plan.Gathers memo place elements columns) :
    List.Forall₂ (AskedColumn.SelectedBy schema)
      (askedColumnsOfElements schema place path elements) (columns.map ResolvedColumn.item) := by
  induction hgathers generalizing path with
  | nil =>
      rw [askedColumnsOfElements]
      exact .nil
  | @column place name column rest columns hknows hrest ih =>
      rw [askedColumnsOfElements, List.map_cons]
      have hname : PlainName name := hplain.columns name List.mem_cons_self
      obtain ⟨-, htable, hsame, halias⟩ :=
        hfaithful.columns ⟨name, place⟩ column hplace hname hknows
      apply List.Forall₂.cons
      · constructor
        · refine ⟨column.table, htable, ?_⟩
          rw [ResolvedColumn.item, ResolvedColumn.expression, hsame]
        · rw [ResolvedColumn.item, halias]
        · exact hled.ofString_resultName hname
      · exact ih hplain.tail hplace hled
  | @joined place nested link rest below columns hknows hjoined hchild hrest ihchild ihrest =>
      have hstep := hplain.step List.mem_cons_self
      have hchildPlace : Path.Plain (place.child nested.step) := hplace.child hstep
      have hlink := hfaithful.links _ _ link hplace hchildPlace hknows
      have hnow : readsLater schema place nested = false := by
        rw [readsLater, hlink]
        exact hjoined
      rw [askedColumnsOfElements, hnow, if_neg Bool.false_ne_true, List.map_append, askedColumns_eq]
      apply List.rel_append
      · exact ihchild (hplain.child List.mem_cons_self) hchildPlace (hled.child hstep)
      · exact ihrest hplain.tail hplace hled
  | @deferred place nested link rest columns hknows hdeferred hrest ih =>
      have hstep := hplain.step List.mem_cons_self
      have hlink := hfaithful.links _ _ link hplace (hplace.child hstep) hknows
      have hlater : readsLater schema place nested = true := by
        rw [readsLater, hlink]
        exact hdeferred
      rw [askedColumnsOfElements, hlater, if_pos rfl, List.nil_append]
      exact ih hplain.tail hplace hled
  | @other place element rest columns hbucket hcolumn hrest ih =>
      have hskip : askedColumnsOfElements schema place path (element :: rest) =
          askedColumnsOfElements schema place path rest := by
        cases element with
        | bucket nested => cases hbucket
        | item item =>
            cases item with
            | column name => cases hcolumn
            | row row => rw [askedColumnsOfElements]
        | _ => rw [askedColumnsOfElements]
      rw [hskip]
      exact ih hplain.tail hplace hled

/-! ## Objects at recorded paths -/

theorem Reached.ledToBy {root : Step} {deepPlace : Path} {deepElements : List Element}
    (hplain : PlainElements elements)
    (hreached : Reached schema [root] elements path deepPlace deepElements) :
    LedToBy deepPlace path := by
  obtain ⟨steps, hplace, hpath, hsteps, -⟩ := hreached.exists_steps hplain
  exact ⟨root, steps, hplace, hpath, hsteps⟩

/-- In the record of every row of which no name is above another, the object at a path holds
each column of a place under its own name, with the value that the row has under the
column's alias. -/
def HoldsByAlias (path : List String) (place : Path) : Prop :=
  ∀ (row : Record) (name : String) (value : Json),
    (row.Pairwise fun first second =>
      Apart (Segments.ofString first.1) (Segments.ofString second.1)) →
    PlainName name → row.get? (Address.resultName ⟨name, place⟩) = some value →
      ∃ object, Record.objectAt? path (Record.unflatten row) = some object ∧
        object.get? name = some value

theorem LedToBy.holdsByAlias (hled : LedToBy place path) : HoldsByAlias path place := by
  intro row name value hapart hname hvalue
  apply Record.exists_objectAt?
  rw [← hled.ofString_resultName hname]
  exact Record.at?_unflatten hapart (Record.mem_of_get? hvalue)

/-- Aliases decode to the paths that reading uses.  The select list of a bucket has one item
for each column that is asked for in the bucket or joined to it, in order, and its alias is
split into the output names of the buckets around the column and the column's name.  Where
preparing the bucket has recorded a path, that path leads to a nested bucket, and in the
record of a row it leads to the object that holds the columns of this bucket. -/
theorem aliases_read_back (hschema : schema.Plain) (hplain : bucket.Plain) :
    (∀ (planner : Plan.Planner) (memo : Memo) (query : Sql.Query) (after : Memo),
      planner.schema = schema → Plan.KeepItems planner.extensions → Memo.Faithful schema memo →
      Succeeds (planner.build bucket) memo (.select query) after →
        ∃ items, query.items =
            items ++ (if bucket.hasTotal then [Plan.totalItem planner.totalField] else []) ∧
          List.Forall₂ (AskedColumn.SelectedBy schema)
            (askedColumns schema bucket.rootPath [] bucket) items) ∧
    ∀ (memo : Memo) (prepared : Bucket) (found : Findings) (after : Memo),
      Memo.Faithful schema memo →
      Succeeds (prepare schema bucket.rootPath [] {} bucket) memo (prepared, found) after →
        (∀ deferred ∈ found.deferred, ∃ place elements,
          Reached schema bucket.rootPath bucket.elements deferred.path place elements ∧
            .bucket deferred.child ∈ elements ∧ HoldsByAlias deferred.path place) ∧
        ∀ key ∈ found.added, ∃ place elements,
          Reached schema bucket.rootPath bucket.elements key.path place elements ∧
            .item (.column key.column) ∉ elements ∧ HoldsByAlias key.path place := by
  have helements : PlainElements bucket.elements := .of_bucket hplain
  obtain ⟨root, hroot, -⟩ := hplain.exists_root
  constructor
  · rintro planner memo query after rfl hkeep hfaithful hbuild
    obtain ⟨hgrows, columns, hgathers, -, hitems⟩ := Plan.Planner.build_succeeds
      (hfaithful.closed hschema) hplain.rootPath helements.descendAll hbuild
    refine ⟨columns.map ResolvedColumn.item, hitems query rfl hkeep, ?_⟩
    rw [askedColumns_eq]
    apply gathers_selectedBy (hfaithful.grows hschema hgrows) helements hplain.rootPath _ hgathers
    exact ⟨root, [], hroot, rfl, nofun⟩
  · intro memo prepared found after hfaithful hprepare
    obtain ⟨-, -, hprepares⟩ :=
      prepare_succeeds hschema hfaithful hplain.rootPath helements.descendAll hprepare
    rw [hroot] at hprepares ⊢
    constructor
    · intro deferred hdeferred
      obtain ⟨later, hlater, hdefers⟩ := hprepares.deferred_eq
      rw [hlater] at hdeferred
      obtain ⟨rest, place, elements, hpath, hreached, hchild, -⟩ :=
        ((hdefers deferred).mp hdeferred).reached
      rw [List.nil_append] at hpath
      rw [hpath]
      exact ⟨place, elements, hreached, hchild, (hreached.ledToBy helements).holdsByAlias⟩
    · intro key hkey
      obtain ⟨more, hmore, hadds⟩ := hprepares.added_eq
      rw [hmore] at hkey
      obtain ⟨rest, place, elements, child, link, hpath, hreached, -, -, -, -, hunasked⟩ :=
        (hadds key hkey).reached fun name => mem_columns.mpr
      rw [List.nil_append] at hpath
      rw [hpath]
      exact ⟨place, elements, hreached, hunasked, (hreached.ledToBy helements).holdsByAlias⟩

/-! ## Chapters of books by honoured authors -/

/-- Chapters, their books, the authors of these, and the authors' awards. -/
def signedBooks : Schema where
  tables := [{ name := "chapter", columns := ["id", "title", "book_id"] },
    { name := "book", columns := ["id", "title", "author_id"] },
    { name := "person", columns := ["id", "name"] },
    { name := "award", columns := ["id", "year", "person_id"] }]
  graph := {
    tables := ["chapter", "book", "person", "award"]
    foreignKeys := [⟨"chapter", "book_id", "book", "id"⟩, ⟨"book", "author_id", "person", "id"⟩,
      ⟨"award", "person_id", "person", "id"⟩] }
  junctions := []

/-- Chapters with their books, the books' authors, and the awards of these. -/
def signedChapters : Bucket where
  name := "chapter"
  elements := [.item (.column "title"),
    .bucket {
      name := "book"
      label := some "in_book"
      elements := [.item (.column "title"),
        .bucket {
          name := "person"
          qualifier := some "author"
          elements := [.item (.column "name"),
            .bucket { name := "award", elements := [.item (.column "year")] }] }] }]

/-- A planner of these tables. -/
def signedPlanner : Plan.Planner where
  schema := signedBooks

theorem aliases_read_back_signedChapters :
    ∃ query after prepared found last,
      Succeeds (signedPlanner.build signedChapters) {} (.select query) after ∧
      query.items.map Sql.SelectItem.aliasName =
        [some "title", some "in_book__title", some "in_book__author__name"] ∧
      Succeeds (prepare signedBooks signedChapters.rootPath [] {} signedChapters) {}
        (prepared, found) last ∧ found.deferred.map Deferred.path = [["in_book", "author"]] ∧
      (∃ items, query.items = items ++ [] ∧ List.Forall₂ (AskedColumn.SelectedBy signedBooks)
        (askedColumns signedBooks signedChapters.rootPath [] signedChapters) items) ∧
      ∀ deferred ∈ found.deferred, ∃ place elements,
        Reached signedBooks signedChapters.rootPath signedChapters.elements deferred.path place
          elements ∧ .bucket deferred.child ∈ elements ∧ HoldsByAlias deferred.path place := by
  have hschema : signedBooks.Plain := by decide
  have hplain : signedChapters.Plain := by decide
  have hfaithful : Memo.Faithful signedBooks {} := .empty signedBooks
  obtain ⟨hselected, hrecorded⟩ := aliases_read_back hschema hplain
  have hbuild : ∃ query after,
      Succeeds (signedPlanner.build signedChapters) {} (.select query) after ∧
        query.items.map Sql.SelectItem.aliasName =
          [some "title", some "in_book__title", some "in_book__author__name"] :=
    ⟨_, _, rfl, rfl⟩
  have hprepare : ∃ prepared found last,
      Succeeds (prepare signedBooks signedChapters.rootPath [] {} signedChapters) {}
        (prepared, found) last ∧ found.deferred.map Deferred.path = [["in_book", "author"]] :=
    ⟨_, _, _, rfl, rfl⟩
  obtain ⟨query, after, hbuilt, haliases⟩ := hbuild
  obtain ⟨prepared, found, last, hprepared, hpaths⟩ := hprepare
  exact ⟨query, after, prepared, found, last, hbuilt, haliases, hprepared, hpaths,
    hselected signedPlanner {} query after rfl .nil hfaithful hbuilt,
    (hrecorded {} prepared found last hfaithful hprepared).1⟩

end TreeQuery.Session
