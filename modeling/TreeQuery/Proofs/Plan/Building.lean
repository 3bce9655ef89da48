import TreeQuery.Plan.Planner
import TreeQuery.Proofs.Plan.Gathering

/-!
# The kind of a statement

A bucket is read when it asks for its total, for a column of its own, or for one of a
bucket joined to it.  Nested buckets that are left to statements of their own do not
count: with nothing else asked for, the bucket becomes a change.
-/

namespace TreeQuery

theorem Bucket.isProjection_iff (bucket : Bucket) :
    bucket.isProjection = true ↔ (∃ name, .item (.column name) ∈ bucket.elements) ∨
      (∃ nested, .bucket nested ∈ bucket.elements) ∨ bucket.hasTotal = true := by
  rw [Bucket.isProjection, Bucket.hasTotal, List.any_eq_true, List.any_eq_true]
  constructor
  · rintro ⟨element, helement, hreads⟩
    cases element with
    | item item =>
        cases item with
        | column name => exact .inl ⟨name, helement⟩
        | row row => cases hreads
    | bucket nested => exact .inr (.inl ⟨nested, helement⟩)
    | total => exact .inr (.inr ⟨_, helement, rfl⟩)
    | clause expression => cases hreads
    | slice slice => cases hreads
    | beacon beacon => cases hreads
  · rintro (⟨name, helement⟩ | ⟨nested, helement⟩ | ⟨element, helement, htotal⟩)
    · exact ⟨_, helement, rfl⟩
    · exact ⟨_, helement, rfl⟩
    · refine ⟨element, helement, ?_⟩
      cases element <;> first | rfl | cases htotal

namespace Plan

open Catalog (DescendAll Memo ResolvedColumn Schema)
open Sql (Statement StatementKind)

variable {asked : Path → Prop} {memo after : Memo}

/-- Elements at a place ask for a column, their own or one of a bucket joined to them by
the remembered links. -/
inductive AsksForColumn (memo : Memo) : Path → List Element → Prop
  | own {place : Path} {elements : List Element} {name : String}
      (hcolumn : .item (.column name) ∈ elements) : AsksForColumn memo place elements
  | joined {place : Path} {elements : List Element} {child : Bucket} {link : Catalog.Link}
      (hchild : .bucket child ∈ elements)
      (hlink : memo.KnowsLink place (place.child child.step) link)
      (hjoined : link.isDeferred = false)
      (hasks : AsksForColumn memo (place.child child.step) child.elements) :
      AsksForColumn memo place elements

theorem AsksForColumn.cons {place : Path} {element : Element} {rest : List Element}
    (hasks : AsksForColumn memo place rest) : AsksForColumn memo place (element :: rest) := by
  cases hasks with
  | own hcolumn => exact .own (List.mem_cons_of_mem _ hcolumn)
  | joined hchild hlink hjoined hasks =>
      exact .joined (List.mem_cons_of_mem _ hchild) hlink hjoined hasks

/-- Columns are gathered exactly when one is asked for. -/
theorem Gathers.ne_nil_iff {place : Path} {elements : List Element}
    {columns : List ResolvedColumn} (hgathers : Gathers memo place elements columns) :
    columns ≠ [] ↔ AsksForColumn memo place elements := by
  induction hgathers with
  | nil =>
      constructor
      · exact fun hne => absurd rfl hne
      · rintro (hcolumn | ⟨hchild, -, -, -⟩)
        · cases hcolumn
        · cases hchild
  | column hcolumn hrest ih =>
      exact ⟨fun _ => .own List.mem_cons_self, fun _ => List.cons_ne_nil _ _⟩
  | @joined place child link rest below columns hlink hjoined hchild hrest ihchild ihrest =>
      constructor
      · intro hne
        by_cases hbelow : below = []
        · subst hbelow
          exact (ihrest.mp hne).cons
        · exact .joined List.mem_cons_self hlink hjoined (ihchild.mp hbelow)
      · rintro (hcolumn | ⟨hnested, hother, hotherJoined, hasks⟩)
        · have hne := ihrest.mpr (.own ((List.mem_cons.mp hcolumn).resolve_left nofun))
          simp [hne]
        · rcases List.mem_cons.mp hnested with hsame | hnested
          · obtain rfl := ElementOf.bucket.inj hsame
            simp [ihchild.mpr hasks]
          · simp [ihrest.mpr (.joined hnested hother hotherJoined hasks)]
  | @deferred place child link rest columns hlink hdeferred hrest ih =>
      rw [ih]
      constructor
      · exact AsksForColumn.cons
      · rintro (hcolumn | ⟨hnested, hother, hjoined, hasks⟩)
        · exact .own ((List.mem_cons.mp hcolumn).resolve_left nofun)
        · rcases List.mem_cons.mp hnested with hsame | hnested
          · -- the child's link is remembered once, so it cannot be joined as well
            obtain rfl := ElementOf.bucket.inj hsame
            obtain rfl := Option.some.inj (hlink.symm.trans hother)
            rw [hdeferred] at hjoined
            cases hjoined
          · exact .joined hnested hother hjoined hasks
  | @other place element rest columns hbucket hcolumn hrest ih =>
      rw [ih]
      constructor
      · exact AsksForColumn.cons
      · rintro (hname | ⟨hnested, hlink, hjoined, hasks⟩)
        · refine .own ((List.mem_cons.mp hname).resolve_left ?_)
          rintro rfl
          cases hcolumn
        · refine .joined ((List.mem_cons.mp hnested).resolve_left ?_) hlink hjoined hasks
          rintro rfl
          cases hbucket

/-- Without extensions the parts of a query stay as they are. -/
theorem adjustParts_nil (beacons : List Beacon) (parts : SelectParts) :
    adjustParts [] beacons parts = .ok parts := by
  induction beacons generalizing parts with
  | nil => rfl
  | cons beacon rest ih => exact ih parts

/-- What every extension keeps of the parts of a query is kept by all of them. -/
theorem adjustParts_keeps (kept : SelectParts → Prop)
    {extensions : List (String × Extension.ReadExtension)}
    (hkeep : ∀ entry ∈ extensions, ∀ beacon parts adjusted,
      entry.2.adjust beacon parts = .ok adjusted → kept parts → kept adjusted)
    {beacons : List Beacon} {parts adjusted : SelectParts}
    (hadjust : adjustParts extensions beacons parts = .ok adjusted) (hparts : kept parts) :
    kept adjusted := by
  induction beacons generalizing parts with
  | nil =>
      obtain rfl := Except.ok.inj hadjust
      exact hparts
  | cons beacon rest ih =>
      rw [adjustParts] at hadjust
      split at hadjust
      · exact ih hadjust hparts
      · next extension hfound =>
          obtain ⟨middle, hmiddle, hrest⟩ := bind_ok_iff.mp hadjust
          rw [List.lookup_eq_some_iff] at hfound
          obtain ⟨before, behind, rfl, -⟩ := hfound
          have hmem : (beacon.key, extension) ∈ before ++ (beacon.key, extension) :: behind :=
            List.mem_append_right _ List.mem_cons_self
          exact ih hrest (hkeep _ hmem beacon parts middle hmiddle hparts)

/-- Extensions that leave the select list of a query as it is. -/
def KeepItems (extensions : List (String × Extension.ReadExtension)) : Prop :=
  ∀ entry ∈ extensions, ∀ beacon parts adjusted,
    entry.2.adjust beacon parts = .ok adjusted → adjusted.items = parts.items

theorem KeepItems.nil : KeepItems [] :=
  nofun

theorem adjustParts_items {extensions : List (String × Extension.ReadExtension)}
    (hkeep : KeepItems extensions) {beacons : List Beacon} {parts adjusted : SelectParts}
    (hadjust : adjustParts extensions beacons parts = .ok adjusted) :
    adjusted.items = parts.items :=
  adjustParts_keeps (fun other => other.items = parts.items)
    (fun entry hentry beacon other changed hchanged hother =>
      (hkeep entry hentry beacon other changed hchanged).trans hother) hadjust rfl

namespace Planner

variable {planner : Planner} {path : Path}

theorem tableAt_grows {table : Sql.TableRef} (hpath : asked path)
    (hrun : Succeeds (planner.tableAt path) memo table after) :
    Memo.Grows planner.schema asked memo after :=
  (Schema.table_succeeds hpath (Succeeds.adapt_iff.mp hrun)).2

theorem checkColumn_grows {column : String} {done : Unit} (hpath : asked path)
    (hrun : Succeeds (planner.checkColumn path column) memo done after) :
    Memo.Grows planner.schema asked memo after := by
  rw [checkColumn] at hrun
  obtain ⟨resolved, middle, hcolumn, hrest⟩ := Succeeds.bind_iff.mp hrun
  obtain ⟨-, rfl⟩ := Succeeds.pure_iff.mp hrest
  have hasked : asked (Address.mk column path).path := hpath
  exact (Schema.column_succeeds hasked (Succeeds.adapt_iff.mp hcolumn)).2.1

theorem forM_grows {α : Type} {step : α → Catalog.Lookup Failure Unit}
    (hstep : ∀ entry memo done after, Succeeds (step entry) memo done after →
      Memo.Grows planner.schema asked memo after) :
    ∀ {entries : List α} {memo : Memo} {done : Unit}, Succeeds (entries.forM step) memo done after →
      Memo.Grows planner.schema asked memo after
  | [], memo, done, hrun => by
      obtain ⟨-, rfl⟩ := Succeeds.pure_iff.mp hrun
      exact .refl
  | entry :: rest, memo, done, hrun => by
      obtain ⟨_, middle, hentry, hrest⟩ := Succeeds.bind_iff.mp hrun
      exact (hstep _ _ _ _ hentry).trans (forM_grows hstep hrest)

/-- The parts of a query before the extensions. -/
def ownParts (planner : Planner) (gathered : Gathered) (table : Sql.TableRef) : SelectParts where
  table := table
  items := gathered.columns ++ if gathered.total then [totalItem planner.totalField] else []
  joins := gathered.joins.map KnownJoin.join
  condition := gathered.condition?
  order := gathered.order
  limit := gathered.limit
  offset := gathered.offset

/-- A query is what was gathered, from the table at the path, as the extensions adjust it. -/
theorem parts_run {gathered : Gathered} {parts : SelectParts}
    (hrun : Succeeds (planner.parts path gathered) memo parts after) :
    ∃ table, Succeeds (planner.tableAt path) memo table after ∧
      adjustParts planner.extensions gathered.beacons (planner.ownParts gathered table) =
        .ok parts := by
  rw [Planner.parts] at hrun
  obtain ⟨table, middle, htable, hrest⟩ := Succeeds.bind_iff.mp hrun
  obtain ⟨hparts, rfl⟩ := Succeeds.liftExcept_iff.mp hrest
  exact ⟨table, htable, hparts⟩

/-- Without extensions, or without beacons for them, a query is what was gathered. -/
theorem parts_eq {gathered : Gathered} {parts : SelectParts}
    (hplain : planner.extensions = [] ∨ gathered.beacons = [])
    (hrun : Succeeds (planner.parts path gathered) memo parts after) :
    ∃ table, Succeeds (planner.tableAt path) memo table after ∧
      parts = planner.ownParts gathered table := by
  obtain ⟨table, htable, hadjust⟩ := parts_run hrun
  refine ⟨table, htable, ?_⟩
  rcases hplain with hextensions | hbeacons
  · rw [hextensions, adjustParts_nil] at hadjust
    exact (Except.ok.inj hadjust).symm
  · rw [hbeacons, adjustParts] at hadjust
    exact (Except.ok.inj hadjust).symm

/-- Unless extensions change it, a query selects the gathered columns and the total. -/
theorem parts_succeeds {gathered : Gathered} {parts : SelectParts} (hpath : asked path)
    (hrun : Succeeds (planner.parts path gathered) memo parts after) :
    Memo.Grows planner.schema asked memo after ∧
      (KeepItems planner.extensions → parts.items = gathered.columns ++
        if gathered.total then [totalItem planner.totalField] else []) := by
  obtain ⟨table, htable, hadjust⟩ := parts_run hrun
  exact ⟨tableAt_grows hpath htable, fun hkeep => adjustParts_items hkeep hadjust⟩

theorem selection_succeeds {bucket : Bucket} {gathered : Gathered} {query : Sql.Query}
    (hpath : asked path)
    (hrun : Succeeds (planner.selection bucket path gathered) memo query after) :
    Memo.Grows planner.schema asked memo after ∧
      (KeepItems planner.extensions → query.items = gathered.columns ++
        if gathered.total then [totalItem planner.totalField] else []) := by
  rw [selection] at hrun
  split at hrun
  · obtain ⟨_, _, hthrow, -⟩ := Succeeds.bind_iff.mp hrun
    exact absurd hthrow Succeeds.not_throw
  · obtain ⟨parts, middle, hparts, hrest⟩ := Succeeds.bind_iff.mp hrun
    obtain ⟨rfl, rfl⟩ := Succeeds.pure_iff.mp hrest
    exact parts_succeeds hpath hparts

theorem insertion_grows {rows : List Record} {insert : Sql.Insert} (hpath : asked path)
    (hrun : Succeeds (planner.insertion path rows) memo insert after) :
    Memo.Grows planner.schema asked memo after := by
  rw [insertion] at hrun
  obtain ⟨_, checked, hcheck, hrest⟩ := Succeeds.bind_iff.mp hrun
  obtain ⟨table, middle, htable, hrest⟩ := Succeeds.bind_iff.mp hrest
  obtain ⟨-, rfl⟩ := Succeeds.pure_iff.mp hrest
  exact (forM_grows (fun _ _ _ _ => checkColumn_grows hpath) hcheck).trans
    (tableAt_grows hpath htable)

theorem update_grows {row : Record} {condition : Sql.Expr} {update : Sql.Update}
    (hpath : asked path) (hrun : Succeeds (planner.update path row condition) memo update after) :
    Memo.Grows planner.schema asked memo after := by
  rw [Planner.update] at hrun
  obtain ⟨table, middle, htable, hrest⟩ := Succeeds.bind_iff.mp hrun
  obtain ⟨_, checked, hcheck, hrest⟩ := Succeeds.bind_iff.mp hrest
  obtain ⟨-, rfl⟩ := Succeeds.pure_iff.mp hrest
  exact (tableAt_grows hpath htable).trans
    (forM_grows (fun _ _ _ _ => checkColumn_grows hpath) hcheck)

theorem deletion_grows {condition : Sql.Expr} {delete : Sql.Delete} (hpath : asked path)
    (hrun : Succeeds (planner.deletion path condition) memo delete after) :
    Memo.Grows planner.schema asked memo after := by
  rw [deletion] at hrun
  obtain ⟨table, middle, htable, hrest⟩ := Succeeds.bind_iff.mp hrun
  obtain ⟨-, rfl⟩ := Succeeds.pure_iff.mp hrest
  exact tableAt_grows hpath htable

theorem change_succeeds {bucket : Bucket} {gathered : Gathered} {statement : Statement}
    (hpath : asked path)
    (hrun : Succeeds (planner.change bucket path gathered) memo statement after) :
    Memo.Grows planner.schema asked memo after ∧ statement.kind ≠ .select := by
  unfold change at hrun
  split at hrun
  · exact absurd hrun Succeeds.not_throw
  · exact absurd hrun Succeeds.not_throw
  · obtain ⟨delete, hdelete, rfl⟩ := Succeeds.map_iff.mp hrun
    exact ⟨deletion_grows hpath hdelete, nofun⟩
  · obtain ⟨insert, hinsert, rfl⟩ := Succeeds.map_iff.mp hrun
    exact ⟨insertion_grows hpath hinsert, nofun⟩
  · obtain ⟨update, hupdate, rfl⟩ := Succeeds.map_iff.mp hrun
    exact ⟨update_grows hpath hupdate, nofun⟩
  · exact absurd hrun Succeeds.not_throw

/-- The statement of a bucket is a query exactly when columns or a total were gathered;
unless extensions change it, the query selects just these. -/
theorem build_succeeds {bucket : Bucket} {statement : Statement}
    (hclosed : Memo.Closed planner.schema asked memo) (hpath : asked bucket.rootPath)
    (hdescend : DescendAll asked bucket.elements)
    (hrun : Succeeds (planner.build bucket) memo statement after) :
    Memo.Grows planner.schema asked memo after ∧
      ∃ columns, Gathers after bucket.rootPath bucket.elements columns ∧
        (statement.kind = .select ↔ columns ≠ [] ∨ bucket.hasTotal = true) ∧
        ∀ query, statement = .select query → KeepItems planner.extensions →
          query.items = columns.map ResolvedColumn.item ++
            if bucket.hasTotal then [totalItem planner.totalField] else [] := by
  rw [build] at hrun
  obtain ⟨gathered, middle, hgather, hrest⟩ := Succeeds.bind_iff.mp hrun
  have hcollects := gather_succeeds hclosed hpath hdescend hgather
  obtain ⟨columns, hgathers, hcolumns⟩ := hcollects.columns
  have hgathered : gathered.columns = columns.map ResolvedColumn.item := hcolumns
  have htotal : gathered.total = bucket.hasTotal := by
    rw [hcollects.total]
    simp [Bucket.rootPath, Bucket.hasTotal]
  have hselects : (!gathered.columns.isEmpty || gathered.total) = true ↔
      columns ≠ [] ∨ bucket.hasTotal = true := by
    rw [hgathered, htotal]
    cases columns <;> simp
  split at hrest
  · next hsome =>
      obtain ⟨query, hquery, rfl⟩ := Succeeds.map_iff.mp hrest
      obtain ⟨hlater, hitems⟩ := selection_succeeds hpath hquery
      refine ⟨hcollects.grows.trans hlater, columns, hgathers.grows hlater, ?_, ?_⟩
      · exact ⟨fun _ => hselects.mp hsome, fun _ => rfl⟩
      · rintro other hother hkeep
        obtain rfl := Statement.select.inj hother
        rw [hitems hkeep, hgathered, htotal]
  · next hnone =>
      obtain ⟨hlater, hkind⟩ := change_succeeds hpath hrest
      refine ⟨hcollects.grows.trans hlater, columns, hgathers.grows hlater, ?_, ?_⟩
      · exact ⟨fun hselect => absurd hselect hkind,
          fun hasks => absurd (hselects.mpr hasks) hnone⟩
      · rintro query rfl
        exact absurd rfl hkind

/-- A bucket that asks for data back becomes a change exactly when nothing but nested
buckets asks for it: no total, and no column down to the last joined bucket. -/
theorem build_changes_projection_iff {bucket : Bucket} {statement : Statement}
    (hrun : Succeeds (planner.build bucket) memo statement after) :
    (statement.kind ≠ .select ∧ bucket.isProjection = true) ↔
      bucket.hasTotal = false ∧ ¬ AsksForColumn after bucket.rootPath bucket.elements ∧
        ∃ nested, .bucket nested ∈ bucket.elements := by
  have hclosed : Memo.Closed planner.schema (fun _ => True) memo :=
    fun _ _ _ _ _ _ _ _ => ⟨trivial, trivial⟩
  obtain ⟨-, columns, hgathers, hkind, -⟩ :=
    build_succeeds hclosed trivial (fun _ _ _ _ _ _ => trivial) hrun
  rw [ne_eq, hkind, hgathers.ne_nil_iff, not_or, Bool.not_eq_true, bucket.isProjection_iff]
  constructor
  · rintro ⟨⟨hcolumns, htotal⟩, ⟨name, hcolumn⟩ | hnested | hasTotal⟩
    · exact absurd (.own hcolumn) hcolumns
    · exact ⟨htotal, hcolumns, hnested⟩
    · rw [htotal] at hasTotal
      cases hasTotal
  · rintro ⟨htotal, hcolumns, hnested⟩
    exact ⟨⟨hcolumns, htotal⟩, .inr (.inl hnested)⟩

/-- Books and the reviews that belong to them. -/
def reviewedBooks : Schema where
  tables := [{ name := "book", columns := ["id", "title"], primaryKey := ["id"] },
    { name := "review", columns := ["id", "body", "book_id"],
      references := [⟨"book_id", "book", "id"⟩] }]
  graph := { tables := ["book", "review"], foreignKeys := [⟨"review", "book_id", "book", "id"⟩] }
  junctions := []

/-- A new book together with a request for its reviews. -/
def newBookWithReviews : Bucket where
  name := "book"
  elements := [.item (.row [("title", .string "Emma")]),
    .bucket { name := "review", elements := [.item (.column "body")] }]

theorem build_changes_projection_reviewedBooks :
    ∃ statement after,
      Succeeds (build { schema := reviewedBooks } newBookWithReviews) {} statement after ∧
      ((statement.kind ≠ .select ∧ newBookWithReviews.isProjection = true) ↔
        newBookWithReviews.hasTotal = false ∧
          ¬ AsksForColumn after newBookWithReviews.rootPath newBookWithReviews.elements ∧
          ∃ nested, .bucket nested ∈ newBookWithReviews.elements) := by
  have hrun : ∃ statement after,
      Succeeds (build { schema := reviewedBooks } newBookWithReviews) {} statement after :=
    ⟨_, _, rfl⟩
  obtain ⟨statement, after, hrun⟩ := hrun
  exact ⟨statement, after, hrun, build_changes_projection_iff hrun⟩

/-- The new book is inserted although its reviews were asked for. -/
theorem insert_of_projection :
    ∃ statement after,
      Succeeds (build { schema := reviewedBooks } newBookWithReviews) {} statement after ∧
        statement.kind = .insert ∧ newBookWithReviews.isProjection = true :=
  ⟨_, _, rfl, rfl, rfl⟩

end Planner

end Plan

end TreeQuery
