import TreeQuery.Proofs.Session.ChildBuckets
import TreeQuery.Proofs.Session.Grouping

/-!
# Fetching a bucket

Fetching executes one query for a bucket and then fetches what is read later, each time
from a longer history and with a memory that is still faithful.
-/

namespace TreeQuery.Session

open Catalog (Link Memo Schema)

variable {reader : Reader} {start middle finish : State} {bucket : Bucket} {fetched : Fetched}
  {depth : Nat}

/-! ## Calls -/

theorem planning_succeeds {α : Type} {lookup : Catalog.Lookup Failure α} {value : α}
    (hrun : Succeeds (planning lookup) start value finish) :
    Succeeds lookup start.memo value finish.memo ∧ finish.history = start.history := by
  have hpair := hrun
  unfold Succeeds planning at hpair
  obtain ⟨hvalue, rfl⟩ := Prod.mk.inj hpair
  exact ⟨Prod.ext hvalue rfl, rfl⟩

/-- A call that is answered is added to the history. -/
theorem callExecute_succeeds {connection : Connection} {statement : Sql.Statement}
    {outcome : Outcome}
    (hrun : Succeeds (connection.callExecute statement) start outcome finish) :
    connection.execute start.history statement = .ok outcome ∧
      finish = { start with history := start.history ++ [.execute statement] } := by
  rw [Connection.callExecute, record] at hrun
  obtain ⟨state, middle, hget, hrun⟩ := Succeeds.bind_iff.mp hrun
  obtain ⟨rfl, rfl⟩ := Succeeds.get_iff.mp hget
  obtain ⟨_, middle, hset, hrun⟩ := Succeeds.bind_iff.mp hrun
  obtain rfl := Succeeds.set_iff.mp hset
  split at hrun
  · next value hanswer =>
      obtain ⟨rfl, rfl⟩ := Succeeds.pure_iff.mp hrun
      exact ⟨hanswer, rfl⟩
  · exact absurd hrun Succeeds.not_throw

/-- Calls are only added, and the memory stays faithful. -/
structure Follows (schema : Schema) (start finish : State) : Prop where
  history : start.history <+: finish.history
  faithful : Memo.Faithful schema start.memo → Memo.Faithful schema finish.memo

theorem Follows.refl {schema : Schema} (state : State) : Follows schema state state :=
  ⟨List.prefix_rfl, id⟩

theorem Follows.trans {schema : Schema} (hfirst : Follows schema start middle)
    (hsecond : Follows schema middle finish) : Follows schema start finish :=
  ⟨hfirst.history.trans hsecond.history, hsecond.faithful ∘ hfirst.faithful⟩

/-! ## One fetch -/

/-- A row without the total, if the bucket asks for it. -/
def Reader.withoutTotal (reader : Reader) (bucket : Bucket) (row : Record) : Record :=
  if bucket.hasTotal then row.erase reader.totalField else row

theorem takeTotal_fst (bucket : Bucket) (rows : List Record) :
    (reader.takeTotal bucket rows).1 = rows.map (reader.withoutTotal bucket) := by
  rw [Reader.takeTotal]
  unfold Reader.withoutTotal
  split
  · rfl
  · exact (List.map_id rows).symm

theorem report_of_none (hextensions : reader.extensions = []) (beacons : List Beacon)
    (fetched : Fetched) : reader.report beacons fetched = .ok fetched := by
  induction beacons with
  | nil => rfl
  | cons beacon rest ih =>
      rw [Reader.report, hextensions]
      exact ih

theorem fetchRows_succeeds {name : String} {prepared : Bucket} {rows : List Record}
    (hrun : Succeeds (reader.fetchRows name prepared) start rows finish) :
    ∃ query outcome, Succeeds (reader.planner.build prepared) start.memo (.select query)
        finish.memo ∧
      reader.connection.execute start.history (.select query) = .ok outcome ∧
      rows = outcome.toRows ∧ finish.history = start.history ++ [.execute (.select query)] := by
  rw [Reader.fetchRows] at hrun
  obtain ⟨statement, middle, hplan, hrun⟩ := Succeeds.bind_iff.mp hrun
  obtain ⟨hbuild, hhistory⟩ := planning_succeeds hplan
  split at hrun
  · next query =>
      obtain ⟨outcome, last, hexecute, hrun⟩ := Succeeds.bind_iff.mp hrun
      obtain ⟨rfl, rfl⟩ := Succeeds.pure_iff.mp hrun
      obtain ⟨hanswer, rfl⟩ := callExecute_succeeds hexecute
      rw [hhistory] at hanswer
      exact ⟨query, outcome, hbuild, hanswer, rfl, by rw [hhistory]⟩
  · exact absurd hrun Succeeds.not_throw

/-- A fetch prepares the bucket, plans and executes its query, fetches what is read later,
puts the records together and lets the extensions report on them. -/
theorem fetch_succeeds (hrun : Succeeds (reader.fetch depth bucket) start fetched finish) :
    ∃ smaller prepared found query outcome first second children total, depth = smaller + 1 ∧
      Succeeds (prepare reader.schema bucket.rootPath [] {} bucket) start.memo (prepared, found)
        first ∧
      Succeeds (reader.planner.build prepared) first (.select query) second.memo ∧
      reader.connection.execute start.history (.select query) = .ok outcome ∧
      second.history = start.history ++ [.execute (.select query)] ∧
      Succeeds (found.deferred.mapM (Reader.fetchChildren (reader.fetch smaller)
        (outcome.toRows.map fun row => Record.unflatten (reader.withoutTotal prepared row))))
          second children finish ∧
      reader.report bucket.beacons ⟨outcome.toRows.map fun row =>
        reader.nest found children (Record.unflatten (reader.withoutTotal prepared row)),
          total⟩ = .ok fetched := by
  cases depth with
  | zero => exact absurd hrun Succeeds.not_throw
  | succ smaller =>
      rw [Reader.fetch] at hrun
      obtain ⟨⟨prepared, found⟩, first, hprepare, hrun⟩ := Succeeds.bind_iff.mp hrun
      obtain ⟨hprepare, hhistory⟩ := planning_succeeds hprepare
      obtain ⟨rows, second, hrows, hrun⟩ := Succeeds.bind_iff.mp hrun
      obtain ⟨query, outcome, hbuild, hanswer, rfl, hcalled⟩ := fetchRows_succeeds hrows
      obtain ⟨rows, total, htaken⟩ :
          ∃ rows total, reader.takeTotal prepared outcome.toRows = (rows, total) := ⟨_, _, rfl⟩
      have hrows : rows = outcome.toRows.map (reader.withoutTotal prepared) := by
        rw [← takeTotal_fst, htaken]
      rw [htaken] at hrun
      obtain ⟨children, last, hchildren, hrun⟩ := Succeeds.bind_iff.mp hrun
      obtain ⟨hreport, rfl⟩ := Succeeds.liftExcept_iff.mp hrun
      rw [hrows, List.map_map] at hchildren
      rw [hhistory] at hanswer hcalled
      refine ⟨smaller, prepared, found, query, outcome, first.memo, second, children, total, rfl,
        hprepare, hbuild, hanswer, hcalled, hchildren, ?_⟩
      rw [Reader.assemble_eq_map, hrows, List.map_map, List.map_map] at hreport
      exact hreport

/-! ## Planning a fetch -/

/-- The query of a bucket is that of its prepared elements at the bucket's own root. -/
theorem plan_succeeds (hschema : reader.schema.Plain) (hplain : bucket.Plain)
    {memo first second : Memo} {prepared : Bucket} {found : Findings} {query : Sql.Query}
    (hfaithful : Memo.Faithful reader.schema memo)
    (hprepare : Succeeds (prepare reader.schema bucket.rootPath [] {} bucket) memo
      (prepared, found) first)
    (hbuild : Succeeds (reader.planner.build prepared) first (.select query) second) :
    Memo.Faithful reader.schema second ∧ prepared.hasTotal = bucket.hasTotal ∧
      Prepares reader.schema bucket.rootPath [] bucket.columns {} bucket.elements
        prepared.elements found ∧
      ∃ columns, Plan.Gathers second bucket.rootPath prepared.elements columns ∧
        (reader.extensions = [] → query.items = columns.map Catalog.ResolvedColumn.item ++
          if bucket.hasTotal then [Plan.totalItem reader.totalField] else []) := by
  have helements : PlainElements bucket.elements := .of_bucket hplain
  obtain ⟨hgrows, hprepared, hprepares⟩ := prepare_succeeds hschema hfaithful
    hplain.rootPath helements.descendAll hprepare
  have hfirst := hfaithful.grows hschema hgrows
  have hothers := hprepares.plainElements hschema helements
  have hpreparedPlain : prepared.Plain := by
    rw [hprepared]
    exact hothers.bucket (hplain bucket .self).1
  obtain ⟨hmore, columns, hgathers, hkind, hitems⟩ :=
    Plan.Planner.build_succeeds (hfirst.closed hschema) hpreparedPlain.rootPath
      hothers.descendAll hbuild
  have htotal : prepared.hasTotal = bucket.hasTotal := hprepares.hasTotal
  -- a query reads data, so the prepared bucket and the bucket have the same root
  have hreads : prepared.isProjection = true := by
    rw [Bucket.isProjection_iff]
    rcases hkind.mp rfl with hcolumns | htotal
    · cases hgathers.ne_nil_iff.mp hcolumns with
      | own hcolumn => exact .inl ⟨_, hcolumn⟩
      | joined hchild => exact .inr (.inl ⟨_, hchild⟩)
    · exact .inr (.inr htotal)
  have hread : bucket.isProjection = true := hprepares.readsData hreads
  have hstep : prepared.step = bucket.step := by
    rw [hprepared]
    rfl
  have hroot : prepared.rootPath = bucket.rootPath := by
    rw [Bucket.rootPath, Bucket.rootPath, if_pos hreads, if_pos hread, hstep]
  rw [hroot] at hgathers
  refine ⟨hfirst.grows hschema hmore, htotal, hprepares, columns, hgathers, ?_⟩
  intro hextensions
  have hkeep : Plan.KeepItems reader.planner.extensions := by
    rw [Reader.planner, hextensions]
    exact .nil
  rw [← htotal]
  exact hitems query rfl hkeep

/-! ## Fetching what is read later -/

section

variable {read : Bucket → Run Fetched} {records : List Record} {deferred : Deferred}
  {children : Children}

theorem fetchChildren_of_no_keys
    (hkeys : parentKeys records deferred.path deferred.link.source.name = [])
    (hrun : Succeeds (Reader.fetchChildren read records deferred) start children finish) :
    children = [] ∧ start = finish := by
  rw [Reader.fetchChildren, hkeys] at hrun
  obtain ⟨hnone, hsame⟩ := Succeeds.pure_iff.mp hrun
  exact ⟨hnone.symm, hsame⟩

theorem fetchChildren_oneToMany {source target : Address}
    (hlink : deferred.link = .oneToMany source target)
    (hkeys : parentKeys records deferred.path deferred.link.source.name ≠ [])
    (hrun : Succeeds (Reader.fetchChildren read records deferred) start children finish) :
    ∃ fetched, Succeeds (read (childrenBucket deferred.child target.name
        (parentKeys records deferred.path deferred.link.source.name))) start fetched finish ∧
      children = childrenOfRows (deferred.child.columns.contains target.name) target.name
        fetched.records := by
  rw [Reader.fetchChildren] at hrun
  generalize parentKeys records deferred.path deferred.link.source.name = keys at hkeys hrun ⊢
  rw [List.isEmpty_eq_false_iff.mpr hkeys, hlink] at hrun
  obtain ⟨fetched, middle, hread, hrun⟩ := Succeeds.bind_iff.mp hrun
  obtain ⟨rfl, rfl⟩ := Succeeds.pure_iff.mp hrun
  exact ⟨fetched, hread, rfl⟩

theorem fetchChildren_manyToMany {source interimSource interimTarget target : Address}
    (hlink : deferred.link = .manyToMany source interimSource interimTarget target)
    (hkeys : parentKeys records deferred.path deferred.link.source.name ≠ [])
    (hrun : Succeeds (Reader.fetchChildren read records deferred) start children finish) :
    ∃ fetched, Succeeds (read (junctionBucket deferred.child deferred.field
        interimSource.path.tableName interimSource.name interimTarget.name target.name
          (parentKeys records deferred.path deferred.link.source.name))) start fetched finish ∧
      children = childrenOfJunction (deferred.child.columns.contains target.name)
        deferred.field interimSource.name target.name fetched.records := by
  rw [Reader.fetchChildren] at hrun
  generalize parentKeys records deferred.path deferred.link.source.name = keys at hkeys hrun ⊢
  rw [List.isEmpty_eq_false_iff.mpr hkeys, hlink] at hrun
  obtain ⟨fetched, middle, hread, hrun⟩ := Succeeds.bind_iff.mp hrun
  obtain ⟨rfl, rfl⟩ := Succeeds.pure_iff.mp hrun
  exact ⟨fetched, hread, rfl⟩

/-- Fetching what is read later keeps what reading buckets of plain names keeps. -/
theorem fetchChildren_follows {schema : Schema} (hschema : schema.Plain) {place : Path}
    (hread : ∀ bucket start fetched finish, bucket.Plain →
      Memo.Faithful schema start.memo → Succeeds (read bucket) start fetched finish →
        Follows schema start finish)
    (hchild : deferred.child.Plain)
    (hlink : schema.linkBetween place (place.child deferred.child.step) =
      .ok (some deferred.link))
    (hdeferred : deferred.link.isDeferred = true)
    (hfield : deferred.field = deferred.child.outputName)
    (hfaithful : Memo.Faithful schema start.memo)
    (hrun : Succeeds (Reader.fetchChildren read records deferred) start children finish) :
    Follows schema start finish := by
  by_cases hkeys : parentKeys records deferred.path deferred.link.source.name = []
  · obtain ⟨-, rfl⟩ := fetchChildren_of_no_keys hkeys hrun
    exact .refl start
  · cases hkind : deferred.link with
    | manyToOne source target =>
        rw [hkind] at hdeferred
        cases hdeferred
    | oneToMany source target =>
        obtain ⟨fetched, hfetch, -⟩ := fetchChildren_oneToMany hkind hkeys hrun
        have hkey := ((Schema.linkBetween_ok hlink).plainNames hschema).2
        rw [hkind] at hkey
        exact hread _ _ _ _ (childrenBucket_plain hchild hkey _) hfaithful hfetch
    | manyToMany source interimSource interimTarget target =>
        obtain ⟨fetched, hfetch, -⟩ := fetchChildren_manyToMany hkind hkeys hrun
        rw [hkind] at hlink
        rw [hfield] at hfetch
        have hjunction := throughJunction_of_link hschema hlink
        exact hread _ _ _ _ (hjunction.plain hchild _) hfaithful hfetch

end

theorem Prepares.nested_plain {schema : Schema} {root : Step} {others : List Element}
    {found : Findings} (hplain : bucket.Plain)
    (hprepares : Prepares schema [root] [] bucket.columns {} bucket.elements others found)
    {deferred : Deferred} (hdeferred : deferred ∈ found.deferred) :
    deferred.child.Plain ∧ deferred.link.isDeferred = true ∧
      deferred.field = deferred.child.outputName ∧
      ∃ place : Path, schema.linkBetween place (place.child deferred.child.step) =
        .ok (some deferred.link) := by
  obtain ⟨later, hlater, hmem⟩ := hprepares.deferred_eq
  rw [hlater] at hdeferred
  obtain ⟨rest, place, elements, -, hreached, hchild, hlink, hkind, hfield⟩ :=
    ((hmem deferred).mp hdeferred).reached
  obtain ⟨-, -, -, -, hdeep⟩ := hreached.exists_steps (.of_bucket hplain)
  exact ⟨hdeep.children _ hchild, hkind, hfield, place, hlink⟩

/-- Everything that is read later is fetched in order, each from a state that follows the
one before. -/
theorem fetchAll_succeeds {schema : Schema} (hschema : schema.Plain) (hplain : bucket.Plain)
    {root : Step} {others : List Element} {found : Findings}
    (hprepares : Prepares schema [root] [] bucket.columns {} bucket.elements others found)
    {read : Bucket → Run Fetched}
    (hread : ∀ bucket start fetched finish, bucket.Plain →
      Memo.Faithful schema start.memo → Succeeds (read bucket) start fetched finish →
        Follows schema start finish)
    (hfaithful : Memo.Faithful schema start.memo) {records : List Record}
    {children : List Children}
    (hrun : Succeeds (found.deferred.mapM (Reader.fetchChildren read records)) start children
      finish) :
    Follows schema start finish ∧ List.Forall₂ (fun deferred children => ∃ middle later,
      Follows schema start middle ∧
        Succeeds (Reader.fetchChildren read records deferred) middle children later ∧
          Follows schema later finish) found.deferred children := by
  apply Succeeds.mapM_forall₂ .refl .trans _ hrun
  intro deferred hdeferred middle value later hfollows hfetch
  obtain ⟨hchild, hkind, hfield, place, hlink⟩ := hprepares.nested_plain hplain hdeferred
  exact fetchChildren_follows hschema hread hchild hlink hkind hfield
    (hfollows.faithful hfaithful) hfetch

/-- A fetch only adds calls and keeps the memory faithful. -/
theorem fetch_follows (hschema : reader.schema.Plain) (hplain : bucket.Plain)
    (hfaithful : Memo.Faithful reader.schema start.memo)
    (hrun : Succeeds (reader.fetch depth bucket) start fetched finish) :
    Follows reader.schema start finish := by
  induction depth generalizing bucket start fetched finish with
  | zero => exact absurd hrun Succeeds.not_throw
  | succ depth ih =>
      obtain ⟨smaller, prepared, found, query, outcome, first, second, children, -, hdepth,
        hprepare, hbuild, -, hcalled, hchildren, -⟩ := fetch_succeeds hrun
      obtain rfl := Nat.succ.inj hdepth
      obtain ⟨hsecond, -, hprepares, -⟩ := plan_succeeds hschema hplain hfaithful hprepare hbuild
      obtain ⟨root, hroot, -⟩ := hplain.exists_root
      rw [hroot] at hprepares
      have hcall : Follows reader.schema start second :=
        ⟨hcalled ▸ List.prefix_append _ _, fun _ => hsecond⟩
      have hlater := fetchAll_succeeds hschema hplain hprepares
        (fun _ _ _ _ hother hmemo hread => ih hother hmemo hread) hsecond hchildren
      exact hcall.trans hlater.1

/-! ## What a fetch gives -/

/-- Every row answered to a query has one scalar for each name that the query selects. -/
def Connection.AnswersByName (connection : Connection) : Prop :=
  ∀ history query outcome, connection.execute history (.select query) = .ok outcome →
    ∀ row ∈ outcome.toRows, RowOf (query.items.filterMap Sql.SelectItem.outputName) row

/-- A connection whose answer to a query depends on the names the query selects. -/
def Connection.ofNames (answer : List String → List Record) : Connection where
  begin _ := .ok ()
  execute _ statement :=
    match statement with
    | .select query => .ok (.rows (answer (query.items.filterMap Sql.SelectItem.outputName)))
    | _ => .ok (.affected 0)
  commit _ := .ok ()
  rollback _ := .ok ()

theorem Connection.answersByName_ofNames {answer : List String → List Record}
    (hanswer : ∀ names, ∀ row ∈ answer names, RowOf names row) :
    (Connection.ofNames answer).AnswersByName := by
  intro history query outcome houtcome row hrow
  obtain rfl := Except.ok.inj houtcome
  exact hanswer _ row hrow

/-- The total, if the bucket asks for it, stands neither at the site of a column nor at that
of a bucket that is read later. -/
def Reader.TotalApart (reader : Reader) (bucket : Bucket) : Prop :=
  bucket.hasTotal = true → ¬ Site reader.schema bucket.rootPath bucket.elements
    (Segments.ofString reader.totalField)

/-- A bucket that is read by names: nothing extends the reader, all names are plain, those
side by side differ, and the connection answers with the names it is asked for. -/
structure Readable (reader : Reader) (bucket : Bucket) : Prop where
  extensions : reader.extensions = []
  schema : reader.schema.Plain
  answers : reader.connection.AnswersByName
  plain : bucket.Plain
  separate : Separate reader.schema bucket
  total : reader.TotalApart bucket

/-- A record shows a row: under every column that the bucket asks for, in itself or in a
bucket joined to it, stands the value of the row. -/
def ShowsRow (schema : Schema) (bucket : Bucket) (row record : Record) : Prop :=
  ∀ path place elements column, Reached schema bucket.rootPath bucket.elements path place elements →
    .item (.column column) ∈ elements → ∃ value,
      row.get? (Segments.join (path ++ [column])) = some value ∧ Shows record path column value

/-- A query is executed for a bucket right away, and for each row it is answered with there
is one record, which shows the row. -/
structure Answered (reader : Reader) (bucket : Bucket) (start finish : State)
    (rows records : List Record) : Prop where
  executed : ∃ query outcome,
    reader.connection.execute start.history (.select query) = .ok outcome ∧
      outcome.toRows = rows ∧ start.history ++ [.execute (.select query)] <+: finish.history
  shown : List.Forall₂ (ShowsRow reader.schema bucket) rows records

/-- Where a row has a key under a name, its record holds at a place the list that belongs to
the text of this key. -/
def HoldsByKey (name : String) (site : List String) (items : String → List Json)
    (rows records : List Record) : Prop :=
  List.Forall₂ (fun row record => ∀ value, row.get? name = some value → value.isNull = false →
    (Json.object record).at? site = some (.array (items value.compact))) rows records

/-- Without the total, an answered row has exactly the names of the columns. -/
theorem rowOf_withoutTotal {names : List String} {items : List Sql.SelectItem} {row : Record}
    (hitems : items.filterMap Sql.SelectItem.outputName =
      names ++ if bucket.hasTotal then [reader.totalField] else [])
    (htotal : bucket.hasTotal = true → reader.totalField ∉ names)
    (hrow : RowOf (items.filterMap Sql.SelectItem.outputName) row) :
    RowOf names (reader.withoutTotal bucket row) ∧
      ∀ name ∈ names, (reader.withoutTotal bucket row).get? name = row.get? name := by
  rw [hitems] at hrow
  rw [Reader.withoutTotal]
  cases hasTotal : bucket.hasTotal with
  | false =>
      rw [hasTotal, if_neg Bool.false_ne_true, List.append_nil] at hrow
      rw [if_neg Bool.false_ne_true]
      exact ⟨hrow, fun _ _ => rfl⟩
  | true =>
      rw [hasTotal, if_pos rfl] at hrow
      rw [if_pos rfl]
      refine ⟨hrow.erase (htotal hasTotal), fun name hname => ?_⟩
      apply Record.get?_erase_of_ne
      rintro rfl
      exact htotal hasTotal hname

theorem outputNames_of_items {columns : List Catalog.ResolvedColumn} {query : Sql.Query}
    (hitems : query.items = columns.map Catalog.ResolvedColumn.item ++
      if bucket.hasTotal then [Plan.totalItem reader.totalField] else []) :
    query.items.filterMap Sql.SelectItem.outputName =
      columns.map Catalog.ResolvedColumn.resultName ++
        if bucket.hasTotal then [reader.totalField] else [] := by
  have hcolumns : (columns.map Catalog.ResolvedColumn.item).filterMap
      Sql.SelectItem.outputName = columns.map Catalog.ResolvedColumn.resultName := by
    rw [List.filterMap_map, ← List.filterMap_eq_map]
    rfl
  rw [hitems, List.filterMap_append, hcolumns]
  cases bucket.hasTotal <;> rfl

/-- Rows that answer the query of a prepared bucket: without the total, each has one scalar for
every name of a prepared column. -/
structure RowsByName (reader : Reader) (bucket : Bucket) (root : Step) (found : Findings)
    (names : List String) (rows : List Record) : Prop where
  rootPath : bucket.rootPath = [root]
  prepared : Prepared reader.schema root bucket found names
  rowOf : ∀ row ∈ rows, RowOf names (reader.withoutTotal bucket row)
  kept : ∀ row ∈ rows, ∀ name ∈ names,
    (reader.withoutTotal bucket row).get? name = row.get? name

namespace RowsByName

variable {root : Step} {found : Findings} {names : List String} {rows : List Record}
  {row : Record} {deferred : Deferred}

theorem shows (hrows : RowsByName reader bucket root found names rows) (children : List Children)
    (hrow : row ∈ rows) :
    ShowsRow reader.schema bucket row
      (reader.nest found children (Record.unflatten (reader.withoutTotal bucket row))) := by
  intro path place elements column hreached hcolumn
  rw [hrows.rootPath] at hreached
  obtain ⟨value, hvalue, hshows⟩ :=
    hrows.prepared.shows_requested (hrows.rowOf row hrow) reader children hreached hcolumn
  have hname := (hrows.prepared.names.requested path place elements column hreached hcolumn).2
  exact ⟨value, (hrows.kept row hrow _ hname).symm.trans hvalue, hshows⟩

theorem mem_deferred (hrows : RowsByName reader bucket root found names rows)
    (hdefers : Defers reader.schema bucket.rootPath [] bucket.elements deferred) :
    deferred ∈ found.deferred := by
  rw [hrows.rootPath] at hdefers
  exact (hrows.prepared.deferred deferred).mpr hdefers

/-- The key of what is read later is in every row, and in the nested record of the row. -/
theorem exists_key (hrows : RowsByName reader bucket root found names rows)
    (hdeferred : deferred ∈ found.deferred) (hrow : row ∈ rows) :
    ∃ value, row.get? (Segments.join (deferred.path ++ [deferred.link.source.name])) =
        some value ∧
      (Json.object (Record.unflatten (reader.withoutTotal bucket row))).at?
        (deferred.path ++ [deferred.link.source.name]) = some value := by
  obtain ⟨place, elements, hreached, hchild, hlink, hkind, -⟩ :=
    hrows.prepared.exists_nested hdeferred
  obtain ⟨hcolumn, hkey⟩ := hrows.prepared.names.keys _ _ _ _ _ hreached hchild hlink hkind
  obtain ⟨value, hvalue, -⟩ := (hrows.rowOf row hrow).exists_get? hkey
  exact ⟨value, (hrows.kept row hrow _ hkey).symm.trans hvalue,
    hrows.prepared.at?_unflatten (hrows.rowOf row hrow) hreached hcolumn hvalue⟩

/-- The children that were attached last are held by their key. -/
theorem holdsByKey (hrows : RowsByName reader bucket root found names rows)
    (hdeferred : deferred ∈ found.deferred) {children : List Children} {attached : Children}
    {before behind : List (Deferred × Children)}
    (hzip : found.deferred.zip children = before ++ (deferred, attached) :: behind)
    (hlast : ∀ entry ∈ behind, entry.1 ≠ deferred)
    (hcollapsed : reader.collapses = true → attached.Collapsed) :
    HoldsByKey (Segments.join (deferred.path ++ [deferred.link.source.name]))
      (deferred.path ++ [deferred.field]) attached.of rows (rows.map fun row =>
        reader.nest found children (Record.unflatten (reader.withoutTotal bucket row))) := by
  obtain ⟨place, elements, hreached, hchild, hlink, hkind, -⟩ :=
    hrows.prepared.exists_nested hdeferred
  obtain ⟨-, hkey⟩ := hrows.prepared.names.keys _ _ _ _ _ hreached hchild hlink hkind
  rw [HoldsByKey, List.forall₂_map_right_iff, List.forall₂_same]
  intro row hrow value hvalue hnull
  exact hrows.prepared.at?_nest_field hdeferred hzip hlast hcollapsed (hrows.rowOf row hrow)
    ((hrows.kept row hrow _ hkey).trans hvalue) hnull

end RowsByName

/-- What is answered to the query of a prepared bucket are rows by name. -/
theorem Readable.rowsByName (hreadable : Readable reader bucket) {root : Step}
    (hroot : bucket.rootPath = [root]) (hname : root.name = bucket.name)
    (hrootPlain : root.Plain) {others : List Element} {found : Findings}
    (hprepares : Prepares reader.schema [root] [] bucket.columns {} bucket.elements others found)
    {memo : Memo} (hfaithful : Memo.Faithful reader.schema memo)
    {columns : List Catalog.ResolvedColumn} (hgathers : Plan.Gathers memo [root] others columns)
    {query : Sql.Query} (hitems : query.items.filterMap Sql.SelectItem.outputName =
      columns.map Catalog.ResolvedColumn.resultName ++
        if bucket.hasTotal then [reader.totalField] else [])
    {history : List Call} {outcome : Outcome}
    (hanswer : reader.connection.execute history (.select query) = .ok outcome) :
    RowsByName reader bucket root found (columns.map Catalog.ResolvedColumn.resultName)
      outcome.toRows := by
  have hnames : Names reader.schema root bucket.elements
      (columns.map Catalog.ResolvedColumn.resultName) :=
    hprepares.names hreadable.schema hrootPlain hreadable.plain hreadable.separate hfaithful
      hgathers
  obtain ⟨later, hlater, hdeferred⟩ := hprepares.deferred_eq
  obtain ⟨more, hmore, hadds⟩ := hprepares.added_eq
  have hprepared : Prepared reader.schema root bucket found
      (columns.map Catalog.ResolvedColumn.resultName) := by
    refine ⟨hreadable.schema, hreadable.plain, hreadable.separate, hname, hnames, ?_, ?_⟩
    · rw [hlater]
      exact hdeferred
    · rw [hmore]
      exact hadds
  have htotal : bucket.hasTotal = true →
      reader.totalField ∉ columns.map Catalog.ResolvedColumn.resultName := by
    intro hasTotal hmem
    obtain ⟨column, path, place, elements, hreached, hcolumn, hsame⟩ := hnames.sites _ hmem
    apply hreadable.total hasTotal
    rw [hroot, hsame, hreached.ofString_join hreadable.schema (.of_bucket hreadable.plain) hcolumn]
    exact .column hreached hcolumn
  have hrows (row : Record) (hrow : row ∈ outcome.toRows) :=
    rowOf_withoutTotal hitems htotal (hreadable.answers _ query outcome hanswer row hrow)
  exact ⟨hroot, hprepared, fun row hrow => (hrows row hrow).1, fun row hrow => (hrows row hrow).2⟩

/-- The children of every bucket that is read later are fetched by the keys of the parents,
and each parent with a key holds its children. -/
theorem fetch_attaches (hreadable : Readable reader bucket)
    (hfaithful : Memo.Faithful reader.schema start.memo)
    (hrun : Succeeds (reader.fetch depth bucket) start fetched finish) :
    ∃ rows, Answered reader bucket start finish rows fetched.records ∧
      (reader.collapses = true → ∀ record ∈ fetched.records, Record.collapse record = record) ∧
      ∀ deferred, Defers reader.schema bucket.rootPath [] bucket.elements deferred →
        (∀ row ∈ rows, ∃ value,
          row.get? (Segments.join (deferred.path ++ [deferred.link.source.name])) = some value ∧
          (Json.object (Record.unflatten (reader.withoutTotal bucket row))).at?
            (deferred.path ++ [deferred.link.source.name]) = some value) ∧
        ∃ smaller children middle later, Follows reader.schema start middle ∧
          Succeeds (Reader.fetchChildren (reader.fetch smaller)
            (rows.map fun row => Record.unflatten (reader.withoutTotal bucket row)) deferred)
              middle children later ∧
          Follows reader.schema later finish ∧
          ((reader.collapses = true → children.Collapsed) →
            HoldsByKey (Segments.join (deferred.path ++ [deferred.link.source.name]))
              (deferred.path ++ [deferred.field]) children.of rows fetched.records) := by
  obtain ⟨smaller, prepared, found, query, outcome, first, second, children, total, rfl,
    hprepare, hbuild, hanswer, hcalled, hchildren, hreport⟩ := fetch_succeeds hrun
  rw [report_of_none hreadable.extensions] at hreport
  have hrecords : fetched.records = outcome.toRows.map fun row =>
      reader.nest found children (Record.unflatten (reader.withoutTotal prepared row)) :=
    (congrArg Fetched.records (Except.ok.inj hreport)).symm
  obtain ⟨hsecond, hsameTotal, hprepares, columns, hgathers, hitems⟩ :=
    plan_succeeds hreadable.schema hreadable.plain hfaithful hprepare hbuild
  have hsameRow : reader.withoutTotal prepared = reader.withoutTotal bucket := by
    funext row
    rw [Reader.withoutTotal, Reader.withoutTotal, hsameTotal]
  rw [hsameRow] at hchildren hrecords
  obtain ⟨root, hroot, hname, hrootPlain⟩ := hreadable.plain.exists_root
  rw [hroot] at hprepares hgathers
  have hrows := hreadable.rowsByName hroot hname hrootPlain hprepares hsecond hgathers
    (outputNames_of_items (hitems hreadable.extensions)) hanswer
  have hcall : Follows reader.schema start second :=
    ⟨hcalled ▸ List.prefix_append _ _, fun _ => hsecond⟩
  obtain ⟨hfollows, hfetched⟩ := fetchAll_succeeds hreadable.schema hreadable.plain hprepares
    (fun _ _ _ _ hother hmemo hread => fetch_follows hreadable.schema hother hmemo hread)
    hsecond hchildren
  refine ⟨outcome.toRows, ⟨⟨query, outcome, hanswer, rfl, ?_⟩, ?_⟩, ?_, ?_⟩
  · rw [← hcalled]
    exact hfollows.history
  · rw [hrecords, List.forall₂_map_right_iff, List.forall₂_same]
    exact fun row hrow => hrows.shows children hrow
  · intro hcollapses record hrecord
    rw [hrecords] at hrecord
    obtain ⟨row, -, rfl⟩ := List.mem_map.mp hrecord
    rw [Reader.nest, hcollapses]
    exact Record.collapse_collapse _
  · intro deferred hdefers
    have hmem : deferred ∈ found.deferred := hrows.mem_deferred hdefers
    obtain ⟨before, attached, behind, hzip, ⟨middle, last, hbefore, hfetch, hbehind⟩, hlast⟩ :=
      exists_last_entry hfetched hmem
    refine ⟨fun row hrow => hrows.exists_key hmem hrow, smaller, attached, middle, last,
      hcall.trans hbefore, hfetch, hbehind, fun hcollapsed => ?_⟩
    rw [hrecords]
    exact hrows.holdsByKey hmem hzip hlast hcollapsed

end TreeQuery.Session
