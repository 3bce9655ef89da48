import TreeQuery.Proofs.Session.Attachment
import TreeQuery.Proofs.Session.Standing

/-!
# Columns that are kept

Keys are removed by path and name, the total by its name, and children are attached by
output name, all in one nested record.  A column that was asked for is missing from the
objects at its path in two cases only: the total has its name, or a bucket nested a
second time at the path needs the column as a key without asking for it.
-/

namespace TreeQuery.Session

open Catalog (Link Memo Schema)

variable {schema : Schema} {place deepPlace : Path} {path requested : List String}
  {elements others deepElements : List Element} {findings found : Findings} {column : String}

/-! ## Keys that are added -/

/-- At a path stands a nested bucket that is read later by a column which the bucket around
it does not ask for. -/
def Borrows (schema : Schema) (place : Path) (elements : List Element) (path : List String)
    (column : String) : Prop :=
  ∃ deepPlace deepElements child link,
    Reached schema place elements path deepPlace deepElements ∧ .bucket child ∈ deepElements ∧
    schema.linkBetween deepPlace (deepPlace.child child.step) = .ok (some link) ∧
    link.isDeferred = true ∧ link.source.name = column ∧ .item (.column column) ∉ deepElements

theorem Adds.of_reached {rest : List String} {bucket child : Bucket} {link : Link}
    (hreached : Reached schema place bucket.elements rest deepPlace deepElements)
    (hchild : .bucket child ∈ deepElements)
    (hlink : schema.linkBetween deepPlace (deepPlace.child child.step) = .ok (some link))
    (hdeferred : link.isDeferred = true)
    (hunasked : .item (.column link.source.name) ∉ deepElements) :
    Adds schema place path bucket.columns bucket.elements ⟨path ++ rest, link.source.name⟩ := by
  generalize helements : bucket.elements = elements at hreached
  induction hreached generalizing path bucket with
  | here =>
      subst helements
      rw [List.append_nil]
      exact .own hchild hlink hdeferred fun hasked => hunasked (mem_columns.mp hasked)
  | @through place _ elements _ nested _ rest hnested hnestedLink hjoined _ ih =>
      subst helements
      have hdeep : Adds schema (place.child nested.step) (path ++ [nested.outputName])
          nested.columns nested.elements
            ⟨path ++ [nested.outputName] ++ rest, link.source.name⟩ := ih hchild hlink hunasked rfl
      rw [List.append_assoc] at hdeep
      exact .through hnested hnestedLink hjoined hdeep

theorem adds_iff_borrows {bucket : Bucket} :
    Adds schema place [] bucket.columns bucket.elements ⟨path, column⟩ ↔
      Borrows schema place bucket.elements path column := by
  constructor
  · intro hadds
    obtain ⟨rest, deepPlace, deepElements, child, link, hpath, hreached, hchild, hlink, hdeferred,
      hcolumn, hunasked⟩ := hadds.reached fun name => mem_columns.mpr
    obtain rfl : path = rest := hpath
    exact ⟨deepPlace, deepElements, child, link, hreached, hchild, hlink, hdeferred, hcolumn.symm,
      hunasked⟩
  · rintro ⟨deepPlace, deepElements, child, link, hreached, hchild, hlink, hdeferred, rfl, hunasked⟩
    have hadds : Adds schema place [] bucket.columns bucket.elements
        ⟨[] ++ path, link.source.name⟩ :=
      .of_reached hreached hchild hlink hdeferred hunasked
    exact hadds

namespace Prepares

theorem added_subset (hprepares : Prepares schema place path requested findings elements others
    found) {key : AddedKey} (hkey : key ∈ findings.added) : key ∈ found.added := by
  obtain ⟨more, hmore, -⟩ := hprepares.added_eq
  rw [hmore]
  exact List.mem_append_left _ hkey

/-- Every key that is needed and was not asked for is added. -/
theorem mem_added (hprepares : Prepares schema place path requested findings elements others found)
    {key : AddedKey} (hadds : Adds schema place path requested elements key) :
    key ∈ found.added := by
  induction hadds generalizing findings others found with
  | own hchild hlink hdeferred hunasked =>
      obtain ⟨before, behind, rfl⟩ := List.append_of_mem hchild
      obtain ⟨middle, front, later, rfl, -, hbehind⟩ := hprepares.of_append
      obtain ⟨last, rfl, hrest⟩ := hbehind.of_deferred hlink hdeferred
      exact hrest.added_subset (mem_added_needKey_iff.mpr (.inr ⟨rfl, hunasked⟩))
  | through hchild hlink hjoined _ ih =>
      obtain ⟨before, behind, rfl⟩ := List.append_of_mem hchild
      obtain ⟨middle, front, later, rfl, -, hbehind⟩ := hprepares.of_append
      obtain ⟨inner, finish, last, rfl, hinner, hrest⟩ := hbehind.of_joined hlink hjoined
      exact hrest.added_subset (ih hinner)

/-- What is reached in a bucket is reached when it is prepared, and asks for all columns it
asked for. -/
theorem reached_asking {rest : List String}
    (hprepares : Prepares schema place path requested findings elements others found)
    (hreached : Reached schema place elements rest deepPlace deepElements) :
    ∃ deepOthers, Reached schema place others rest deepPlace deepOthers ∧
      ∀ name, .item (.column name) ∈ deepElements → .item (.column name) ∈ deepOthers := by
  induction hreached generalizing path requested findings others found with
  | here => exact ⟨others, .here, fun name hcolumn => hprepares.kept hcolumn rfl⟩
  | @through place deepPlace elements deepElements child link rest hchild hlink hjoined _ ih =>
      obtain ⟨_, _, _, _, _, inner, -, -, hinner, hmem⟩ :=
        hprepares.joined_of_mem hchild hlink hjoined
      obtain ⟨deepOthers, hdeep, hcolumns⟩ := ih hinner
      exact ⟨deepOthers, @Reached.through schema place deepPlace others deepOthers
        { child with elements := inner } link rest hmem hlink hjoined hdeep, hcolumns⟩

end Prepares

/-! ## Rows in key order -/

/-- A row of the given names in key order: one value under each name and nothing else. -/
structure OrderedRow (names : List String) (row : Record) : Prop where
  ordered : (row.map Prod.fst).Pairwise (· < ·)
  names : ∀ name, name ∈ row.map Prod.fst ↔ name ∈ names

instance (names : List String) (row : Record) : Decidable (OrderedRow names row) :=
  decidable_of_iff ((row.map Prod.fst).Pairwise (· < ·) ∧
      (∀ name ∈ row.map Prod.fst, name ∈ names) ∧ ∀ name ∈ names, name ∈ row.map Prod.fst)
    ⟨fun hparts => ⟨hparts.1, fun name => ⟨hparts.2.1 name, hparts.2.2 name⟩⟩,
      fun hrow => ⟨hrow.ordered, fun name => (hrow.names name).mp, fun name =>
        (hrow.names name).mpr⟩⟩

/-- Every row answered to a query has one value for each name that the query selects. -/
def Connection.AnswersInOrder (connection : Connection) : Prop :=
  ∀ history query outcome, connection.execute history (.select query) = .ok outcome →
    ∀ row ∈ outcome.toRows, OrderedRow (query.items.filterMap Sql.SelectItem.outputName) row

/-- The total of a bucket has the name of a column at a path. -/
def Reader.TotalNames (reader : Reader) (bucket : Bucket) (path : List String)
    (column : String) : Prop :=
  bucket.hasTotal = true ∧ reader.totalField = Segments.join (path ++ [column])

variable {reader : Reader} {bucket : Bucket} {start finish : State} {row : Record}

theorem withoutTotal_sublist (reader : Reader) (bucket : Bucket) (row : Record) :
    (reader.withoutTotal bucket row).Sublist row := by
  rw [Reader.withoutTotal]
  split
  · rw [Record.erase_eq_filter]
    exact List.filter_sublist
  · exact .refl row

/-- Only the total is taken out of a row. -/
theorem mem_withoutTotal {name : String} :
    name ∈ (reader.withoutTotal bucket row).map Prod.fst ↔
      name ∈ row.map Prod.fst ∧ (bucket.hasTotal = true → reader.totalField ≠ name) := by
  rw [Reader.withoutTotal]
  split
  · next hasTotal =>
      rw [Record.erase_eq_filter, List.mem_map, List.mem_map]
      constructor
      · rintro ⟨field, hfield, rfl⟩
        obtain ⟨hmem, hother⟩ := List.mem_filter.mp hfield
        exact ⟨⟨field, hmem, rfl⟩, fun _ => Ne.symm (of_decide_eq_true hother)⟩
      · rintro ⟨⟨field, hfield, rfl⟩, hother⟩
        exact ⟨field, List.mem_filter.mpr ⟨hfield, by simpa using Ne.symm (hother hasTotal)⟩, rfl⟩
  · next hasTotal => exact ⟨fun hname => ⟨hname, fun htotal => absurd htotal hasTotal⟩, And.left⟩

/-- A column among the names of a row is in the nested record, unless it is the total or is
removed as a key. -/
theorem nest_misses_iff {names : List String} (children : List Children)
    (hrow : OrderedRow names row) (hname : Segments.join (path ++ [column]) ∈ names)
    (hsegments : Segments.ofString (Segments.join (path ++ [column])) = path ++ [column])
    (htotal : ¬ reader.TotalNames bucket path column) {object : Record}
    (hobject : Record.objectAt? path (reader.nest found children
      (Record.unflatten (reader.withoutTotal bucket row))) = some object) :
    object.get? column = none ↔ ⟨path, column⟩ ∈ found.added := by
  have hkept : Segments.join (path ++ [column]) ∈
      (reader.withoutTotal bucket row).map Prod.fst :=
    mem_withoutTotal.mpr ⟨(hrow.names _).mpr hname, fun hasTotal hsame => htotal ⟨hasTotal, hsame⟩⟩
  have hordered := hrow.ordered.sublist ((withoutTotal_sublist reader bucket row).map Prod.fst)
  have hunflatten := Record.isSome_at?_unflatten hordered hkept
  rw [hsegments] at hunflatten
  constructor
  · intro hnone
    by_contra hadded
    have hnested : (reader.nest found children
        (Record.unflatten (reader.withoutTotal bucket row))).Stands true path column := by
      apply nest_stands reader children
      · exact fun _ _ _ _ => rfl
      · exact fun hmem => absurd hmem hadded
      · exact .of_at? hunflatten
    have hsome := hnested object hobject
    rw [hnone] at hsome
    cases hsome
  · intro hadded
    simpa using nest_stands_of_added reader children _ hadded object hobject

/-- A column whose name the total has is in no nested record, if nothing beside it has its
name. -/
theorem nest_misses_total {names : List String} (children : List Children)
    (hrow : RowOf names row)
    (hnames : ∀ name ∈ names, name ≠ Segments.join (path ++ [column]) →
      ¬ path ++ [column] <+: Segments.ofString name)
    (hfields : ∀ deferred ∈ found.deferred, deferred.path = path → deferred.field ≠ column)
    (htotal : reader.TotalNames bucket path column) {object : Record}
    (hobject : Record.objectAt? path (reader.nest found children
      (Record.unflatten (reader.withoutTotal bucket row))) = some object) :
    object.get? column = none := by
  have hunflatten : (Record.unflatten (reader.withoutTotal bucket row)).Stands false path
      column := by
    apply Record.Stands.unflatten
    · exact fun field hfield => hrow.scalars field ((withoutTotal_sublist _ _ _).subset hfield)
    · intro field hfield
      obtain ⟨hmem, hother⟩ := mem_withoutTotal.mp (List.mem_map_of_mem hfield)
      apply hnames _ ((hrow.names _).mp hmem)
      rw [← htotal.2]
      exact Ne.symm (hother htotal.1)
  simpa using nest_stands reader children
    (fun deferred hdeferred hpath hfield => absurd hfield (hfields deferred hdeferred hpath))
    (fun _ => rfl) hunflatten object hobject

/-! ## What is selected -/

/-- The names that the query of a prepared bucket selects.  Those of the columns that are asked
for are among them, and each belongs to a column of the bucket or to its total. -/
structure SelectsSites (reader : Reader) (bucket : Bucket) (root : Step) (found : Findings)
    (names : List String) : Prop where
  prepares : ∃ others,
    Prepares reader.schema [root] [] bucket.columns {} bucket.elements others found
  requested : ∀ {path place elements column},
    Reached reader.schema [root] bucket.elements path place elements →
      .item (.column column) ∈ elements →
        Segments.ofString (Segments.join (path ++ [column])) = path ++ [column] ∧
          Segments.join (path ++ [column]) ∈ names
  sites : ∀ name ∈ names, bucket.hasTotal = true ∧ name = reader.totalField ∨
    ∃ column path place elements,
      Reached reader.schema [root] bucket.elements path place elements ∧
        Segments.ofString name = path ++ [column] ∧ name = Segments.join (path ++ [column])

namespace SelectsSites

variable {root : Step} {names : List String}

/-- A key is added at a path just if a bucket nested there borrows it. -/
theorem mem_added_iff (hselects : SelectsSites reader bucket root found names) :
    ⟨path, column⟩ ∈ found.added ↔ Borrows reader.schema [root] bucket.elements path column := by
  obtain ⟨others, hprepares⟩ := hselects.prepares
  rw [← adds_iff_borrows]
  constructor
  · intro hadded
    obtain ⟨more, hmore, hadds⟩ := hprepares.added_eq
    rw [hmore] at hadded
    exact hadds _ hadded
  · exact hprepares.mem_added

/-- If no bucket nested at a path has the name of a column, no other name that is selected leads
to the column or below it. -/
theorem not_above (hselects : SelectsSites reader bucket root found names)
    (htotal : reader.TotalNames bucket path column)
    (hbeside : ∀ place elements child,
      Reached reader.schema [root] bucket.elements path place elements →
        .bucket child ∈ elements → child.outputName ≠ column)
    {name : String} (hmem : name ∈ names) (hother : name ≠ Segments.join (path ++ [column])) :
    ¬ path ++ [column] <+: Segments.ofString name := by
  intro habove
  rcases hselects.sites name hmem with ⟨-, hname⟩ | ⟨last, site, _, _, hsite, hsegments, hname⟩
  · exact hother (hname.trans htotal.2)
  · rw [hsegments] at habove
    rcases List.prefix_concat_iff.mp habove with hsame | ⟨rest, rfl⟩
    · exact hother (hname.trans (congrArg Segments.join hsame.symm))
    · -- the other column would stand below a bucket of this name
      rw [List.append_assoc] at hsite
      obtain ⟨middlePlace, middleElements, hmiddle, hbelow⟩ := hsite.split
      obtain ⟨child, _, hchild, hchildName, -⟩ := hbelow.cons_inv
      exact hbeside _ _ child hmiddle hchild hchildName

/-- Nor is anything that is read later attached by that name. -/
theorem field_ne (hselects : SelectsSites reader bucket root found names)
    (hbeside : ∀ place elements child,
      Reached reader.schema [root] bucket.elements path place elements →
        .bucket child ∈ elements → child.outputName ≠ column)
    {deferred : Deferred} (hdeferred : deferred ∈ found.deferred) (hpath : deferred.path = path) :
    deferred.field ≠ column := by
  intro hfield
  obtain ⟨others, hprepares⟩ := hselects.prepares
  obtain ⟨later, hlater, hdefers⟩ := hprepares.deferred_eq
  rw [hlater] at hdeferred
  obtain ⟨rest, _, _, hrest, hbeneath, hchild, -, -, houtput⟩ :=
    ((hdefers deferred).mp hdeferred).reached
  rw [List.nil_append, hpath] at hrest
  subst hrest
  exact hbeside _ _ deferred.child hbeneath hchild (houtput.symm.trans hfield)

end SelectsSites

/-- What is planned for a prepared bucket selects its sites. -/
theorem Prepares.selectsSites (hschema : reader.schema.Plain) (hplain : bucket.Plain)
    {root : Step} (hroot : bucket.rootPath = [root])
    (hprepares : Prepares reader.schema [root] [] bucket.columns {} bucket.elements others found)
    {memo : Memo} (hfaithful : Memo.Faithful reader.schema memo)
    {columns : List Catalog.ResolvedColumn}
    (hgathers : Plan.Gathers memo [root] others columns) {names : List String}
    (hnames : names = columns.map Catalog.ResolvedColumn.resultName ++
      if bucket.hasTotal then [reader.totalField] else []) :
    SelectsSites reader bucket root found names where
  prepares := ⟨others, hprepares⟩
  requested {path place elements column} hreached hasked := by
    have helements : PlainElements bucket.elements := .of_bucket hplain
    have hothers := hprepares.plainElements hschema helements
    obtain ⟨deepOthers, hdeep, hcolumns⟩ := hprepares.reached_asking hreached
    obtain ⟨hhas, gathered, hgathered, hresult⟩ :=
      exists_gathered hothers (hroot ▸ hplain.rootPath) hfaithful hgathers hdeep
        (hcolumns column hasked)
    refine ⟨hreached.ofString_join hschema helements hhas, ?_⟩
    rw [hnames, ← hdeep.resultName hothers column, ← hresult]
    exact List.mem_append_left _ (List.mem_map_of_mem hgathered)
  sites name hname := by
    rw [hnames, List.mem_append] at hname
    rcases hname with hcolumn | htotal
    · obtain ⟨last, site, place, elements, hsite, hhas, hjoined⟩ :=
        hprepares.sites hschema (hroot ▸ hplain.rootPath) hplain hfaithful hgathers name hcolumn
      refine .inr ⟨last, site, place, elements, hsite, ?_, hjoined⟩
      rw [hjoined, hsite.ofString_join hschema (.of_bucket hplain) hhas]
    · rw [apply_ite (name ∈ ·)] at htotal
      split at htotal
      · next hasTotal => exact .inl ⟨hasTotal, List.mem_singleton.mp htotal⟩
      · cases htotal

/-- A bucket that is read without extensions selects its sites, and each row of the answer is
nested for itself. -/
theorem read_selectsSites (hextensions : reader.extensions = []) (hschema : reader.schema.Plain)
    (hplain : bucket.Plain) (hfaithful : Memo.Faithful reader.schema start.memo) {view : View}
    (hrun : Succeeds (reader.read bucket) start view finish) :
    ∃ root query outcome found children, bucket.rootPath = [root] ∧
      reader.connection.execute start.history (.select query) = .ok outcome ∧
      SelectsSites reader bucket root found (query.items.filterMap Sql.SelectItem.outputName) ∧
      view.data = (outcome.toRows.map fun row => reader.nest found children
        (Record.unflatten (reader.withoutTotal bucket row))).map .object := by
  obtain ⟨fetched, depth, hfetch, hview⟩ := read_succeeds hrun
  obtain ⟨smaller, prepared, found, query, outcome, first, second, children, total, -, hprepare,
    hbuild, hanswer, -, -, hreport⟩ := fetch_succeeds hfetch
  rw [report_of_none hextensions] at hreport
  have hrecords : fetched.records = outcome.toRows.map fun row =>
      reader.nest found children (Record.unflatten (reader.withoutTotal prepared row)) :=
    (congrArg Fetched.records (Except.ok.inj hreport)).symm
  obtain ⟨hsecond, hsameTotal, hprepares, columns, hgathers, hitems⟩ :=
    plan_succeeds hschema hplain hfaithful hprepare hbuild
  have hsameRow : reader.withoutTotal prepared = reader.withoutTotal bucket := by
    funext row
    rw [Reader.withoutTotal, Reader.withoutTotal, hsameTotal]
  obtain ⟨root, hroot, -⟩ := hplain.exists_root
  rw [hroot] at hprepares hgathers
  have hselects := hprepares.selectsSites hschema hplain hroot hsecond hgathers
    (outputNames_of_items (hitems hextensions))
  refine ⟨root, query, outcome, found, children, hroot, hanswer, hselects, ?_⟩
  rw [hview, hrecords, hsameRow]

/-- A column that a bucket asks for is missing from an object at the bucket's path if and
only if a bucket nested at this path needs it as a key without asking for it.  When the
total has the name of the column, the column is missing, unless something nested beside it
has its name too. -/
theorem read_misses_column_iff (hextensions : reader.extensions = [])
    (hschema : reader.schema.Plain) (hplain : bucket.Plain)
    (hanswers : reader.connection.AnswersInOrder)
    (hfaithful : Memo.Faithful reader.schema start.memo)
    (hreached : Reached reader.schema bucket.rootPath bucket.elements path place elements)
    (hasked : .item (.column column) ∈ elements) {view : View}
    (hrun : Succeeds (reader.read bucket) start view finish) :
    ∃ records : List Record, view.data = records.map .object ∧ ∀ record ∈ records, ∀ object,
      Record.objectAt? path record = some object →
        (¬ reader.TotalNames bucket path column →
          (object.get? column = none ↔
            Borrows reader.schema bucket.rootPath bucket.elements path column)) ∧
        (reader.TotalNames bucket path column → reader.connection.AnswersByName →
          (∀ place elements child,
            Reached reader.schema bucket.rootPath bucket.elements path place elements →
              .bucket child ∈ elements → child.outputName ≠ column) →
          object.get? column = none) := by
  obtain ⟨root, query, outcome, found, children, hroot, hanswer, hselects, hdata⟩ :=
    read_selectsSites hextensions hschema hplain hfaithful hrun
  rw [hroot] at hreached ⊢
  obtain ⟨hsegments, hname⟩ := hselects.requested hreached hasked
  refine ⟨_, hdata, fun record hrecord object hobject => ?_⟩
  obtain ⟨row, hrow, rfl⟩ := List.mem_map.mp hrecord
  constructor
  · intro htotal
    rw [← hselects.mem_added_iff]
    exact nest_misses_iff children (hanswers _ query outcome hanswer row hrow) hname hsegments
      htotal hobject
  · intro htotal hbyName hbeside
    exact nest_misses_total children (hbyName _ query outcome hanswer row hrow)
      (fun _ hmem hother => hselects.not_above htotal hbeside hmem hother)
      (fun _ hdeferred hpath => hselects.field_ne hbeside hdeferred hpath) htotal hobject

/-! ## An author nested twice -/

theorem Connection.answersInOrder_ofNames {answer : List String → List Record}
    (hanswer : ∀ names, ∀ row ∈ answer names, OrderedRow names row) :
    (Connection.ofNames answer).AnswersInOrder := by
  intro history query outcome houtcome row hrow
  obtain rfl := Except.ok.inj houtcome
  exact hanswer _ row hrow

/-- Books, their authors, and the awards of these. -/
def awardedAuthors : Schema where
  tables := [{ name := "book", columns := ["id", "title", "author_id"] },
    { name := "author", columns := ["id", "name"] },
    { name := "award", columns := ["id", "year", "author_id"] }]
  graph := {
    tables := ["book", "author", "award"]
    foreignKeys := [⟨"book", "author_id", "author", "id"⟩, ⟨"award", "author_id", "author", "id"⟩] }
  junctions := []

/-- Books with the awards of their authors and, nested once more, the authors' keys. -/
def booksByAuthor : Bucket where
  name := "book"
  elements := [.item (.column "title"),
    .bucket { name := "author", elements := [
      .bucket { name := "award", elements := [.item (.column "year")] }] },
    .bucket { name := "author", elements := [.item (.column "id")] }]

/-- A book, and an award of its author. -/
def awardAnswers : List String → List Record
  | ["title", "author__id", "author__id"] =>
      [[("author__id", .int 7), ("title", .string "Emma")]]
  | ["year", "author_id"] => [[("author_id", .int 7), ("year", .int 1816)]]
  | _ => []

theorem awardAnswers_orderedRow (names : List String) :
    ∀ row ∈ awardAnswers names, OrderedRow names row := by
  intro row hrow
  unfold awardAnswers at hrow
  split at hrow
  · obtain rfl := List.mem_singleton.mp hrow
    decide
  · obtain rfl := List.mem_singleton.mp hrow
    decide
  · cases hrow

/-- A reader of these answers. -/
def awardReader : Reader where
  schema := awardedAuthors
  connection := .ofNames awardAnswers

theorem reached_secondAuthor : Reached awardReader.schema booksByAuthor.rootPath
    booksByAuthor.elements ["author"] [{ name := "book" }, { name := "author" }]
      [.item (.column "id")] :=
  .through (List.mem_cons_of_mem _ (List.mem_cons_of_mem _ List.mem_cons_self)) rfl rfl .here

theorem read_booksByAuthor : ∃ view finish,
    Succeeds (awardReader.read booksByAuthor) {} view finish ∧
      view.data.map (fun record =>
        ((record.at? ["author"]).isSome, (record.at? ["author", "id"]).isSome)) =
          [(true, false)] :=
  Succeeds.of_toOption
    (show (Id.run ((awardReader.read booksByAuthor).run.run {})).1.toOption.map
      (fun view => view.data.map fun record =>
        ((record.at? ["author"]).isSome, (record.at? ["author", "id"]).isSome)) =
          some [(true, false)] by decide +kernel)

/-- The author's key is asked for, and it is missing since the awards need it. -/
theorem read_misses_column_iff_booksByAuthor : ∃ view finish,
    Succeeds (awardReader.read booksByAuthor) {} view finish ∧
      ∃ records : List Record, view.data = records.map .object ∧ ∀ record ∈ records, ∀ object,
        Record.objectAt? ["author"] record = some object →
          (¬ awardReader.TotalNames booksByAuthor ["author"] "id" →
            (object.get? "id" = none ↔ Borrows awardReader.schema booksByAuthor.rootPath
              booksByAuthor.elements ["author"] "id")) ∧
          (awardReader.TotalNames booksByAuthor ["author"] "id" →
            awardReader.connection.AnswersByName →
            (∀ place elements child,
              Reached awardReader.schema booksByAuthor.rootPath booksByAuthor.elements ["author"]
                place elements → .bucket child ∈ elements → child.outputName ≠ "id") →
            object.get? "id" = none) := by
  obtain ⟨view, finish, hrun, -⟩ := read_booksByAuthor
  have hfaithful : Memo.Faithful awardReader.schema (State.memo {}) := .empty awardedAuthors
  exact ⟨view, finish, hrun, read_misses_column_iff rfl (by decide) (by decide)
    (Connection.answersInOrder_ofNames awardAnswers_orderedRow) hfaithful reached_secondAuthor
    List.mem_cons_self hrun⟩

/-- Names are plain, rows are in order and no total is asked for.  Still the author's key,
which the second bucket asks for, is not in the record. -/
theorem booksByAuthor_loses_key :
    awardReader.schema.Plain ∧ booksByAuthor.Plain ∧
      awardReader.connection.AnswersInOrder ∧ booksByAuthor.hasTotal = false ∧
      Reached awardReader.schema booksByAuthor.rootPath booksByAuthor.elements ["author"]
        [{ name := "book" }, { name := "author" }] [.item (.column "id")] ∧
      ∃ view finish, Succeeds (awardReader.read booksByAuthor) {} view finish ∧
        view.data.map (fun record =>
          ((record.at? ["author"]).isSome, (record.at? ["author", "id"]).isSome)) =
            [(true, false)] :=
  ⟨by decide, by decide, Connection.answersInOrder_ofNames awardAnswers_orderedRow, rfl,
    reached_secondAuthor, read_booksByAuthor⟩

end TreeQuery.Session
