import TreeQuery.Proofs.Catalog.ListedKeys
import TreeQuery.Proofs.Plan.SteadyPlans
import TreeQuery.Proofs.Session.Columns

/-!
# Queries with keys added

A prepared bucket lacks the nested buckets that are read later and asks for the columns by
which these are found.  The planner leaves out the former by itself.  Hence gathering the
prepared bucket collects what gathering the bucket collects, and the added columns besides.
-/

namespace TreeQuery

theorem Step.Named.plain {step : Step} (hnamed : step.Named PlainName) : step.Plain :=
  ⟨hnamed.name, hnamed.qualifier, hnamed.label⟩

theorem Bucket.Named.plain {bucket : Bucket} (hnamed : bucket.Named PlainName) : bucket.Plain :=
  fun inner hwithin => ⟨(hnamed inner hwithin).1.plain, fun _ hname =>
    (hnamed inner hwithin).2 _ hname⟩

namespace Session

open Catalog (Link Memo ResolvedColumn Schema)
open Plan (ClauseSet Gathered GatherRun gather gatherElements)

/-! ## Further entries of a list -/

/-- A list with further entries put in between. -/
structure Inserts {α : Type} (added entries wider : List α) : Prop where
  sublist : List.Sublist entries wider
  perm : List.Perm wider (entries ++ added)

namespace Inserts

variable {α : Type} {added more entries others wider further : List α}

theorem refl (entries : List α) : Inserts [] entries entries :=
  ⟨.refl entries, by rw [List.append_nil]⟩

theorem all (added : List α) : Inserts added [] added :=
  ⟨List.nil_sublist added, .refl added⟩

theorem append (hfirst : Inserts added entries wider) (hsecond : Inserts more others further) :
    Inserts (added ++ more) (entries ++ others) (wider ++ further) where
  sublist := hfirst.sublist.append hsecond.sublist
  perm := by
    calc List.Perm (wider ++ further) ((entries ++ added) ++ (others ++ more)) :=
          hfirst.perm.append hsecond.perm
      List.Perm _ ((entries ++ others) ++ (added ++ more)) := by
          simp only [List.append_assoc]
          apply List.Perm.append_left
          simp only [← List.append_assoc]
          apply List.Perm.append_right
          exact List.perm_append_comm

end Inserts

/-! ## Keys in a query -/

/-- A select item for the key of a nested bucket that is read later, where the key was not
asked for beside that bucket. -/
inductive KeyItem (schema : Schema) :
    Path → List String → List String → List Element → AddedKey → Sql.SelectItem → Prop
  | own {place : Path} {path requested : List String} {elements : List Element} {child : Bucket}
      {link : Link} {column : ResolvedColumn} (hchild : .bucket child ∈ elements)
      (hlink : schema.linkBetween place (place.child child.step) = .ok (some link))
      (hdeferred : link.isDeferred = true) (hunasked : link.source.name ∉ requested)
      (hcolumn : schema.columnRef? ⟨link.source.name, place⟩ = some column) :
      KeyItem schema place path requested elements ⟨path, link.source.name⟩ column.item
  | through {place : Path} {path requested : List String} {elements : List Element}
      {child : Bucket} {link : Link} {key : AddedKey} {item : Sql.SelectItem}
      (hchild : .bucket child ∈ elements)
      (hlink : schema.linkBetween place (place.child child.step) = .ok (some link))
      (hjoined : link.isDeferred = false)
      (hitem : KeyItem schema (place.child child.step) (path ++ [child.outputName])
        child.columns child.elements key item) :
      KeyItem schema place path requested elements key item

variable {schema : Schema} {place : Path} {path requested : List String}
  {elements : List Element}

theorem KeyItem.cons {element : Element} {key : AddedKey} {item : Sql.SelectItem}
    (hitem : KeyItem schema place path requested elements key item) :
    KeyItem schema place path requested (element :: elements) key item := by
  cases hitem with
  | own hchild hlink hdeferred hunasked hcolumn =>
      exact .own (List.mem_cons_of_mem _ hchild) hlink hdeferred hunasked hcolumn
  | through hchild hlink hjoined hitem =>
      exact .through (List.mem_cons_of_mem _ hchild) hlink hjoined hitem

/-- The column of a key is found at its place. -/
theorem exists_keyColumn (hlists : schema.ListsTargets) {target : Path} {link : Link}
    (hlink : schema.linkBetween place target = .ok (some link))
    (hdeferred : link.isDeferred = true) :
    ∃ column, schema.columnRef? ⟨link.source.name, place⟩ = some column := by
  have hlisted : schema.hasColumn place.tableName link.source.name = true :=
    hlists.hasColumn hlink hdeferred
  rw [Schema.columnRef?, if_pos hlisted]
  rw [Schema.hasColumn] at hlisted
  cases hlast : place.getLast? with
  | none =>
      rw [Schema.linkBetween, hlast] at hlink
      cases hlink
  | some step =>
      cases hnamed : schema.tableNamed? place.tableName with
      | none =>
          rw [hnamed] at hlisted
          cases hlisted
      | some table =>
          have hname : place.tableName = step.name := by rw [Path.tableName, hlast]
          rw [hname] at hnamed
          simp [Schema.tableRef?, hlast, hnamed]

/-! ## Gathering prepared elements -/

/-- From other columns, gathering prepared elements gives what was gathered, and the keys that
are added between the columns. -/
def GathersKeys (schema : Schema) (place : Path) (path requested : List String)
    (elements others : List Element) (findings found : Findings)
    (added columns : List Sql.SelectItem) (start : Gathered) (clauses : ClauseSet)
    (result : Gathered) (final : ClauseSet) : Prop :=
  ∃ wider keys items, found.added = findings.added ++ keys ∧
    List.Forall₂ (KeyItem schema place path requested elements) keys items ∧
      Inserts (added ++ items) result.columns wider ∧
        ∀ name, schema.Gives (gatherElements schema place name { start with columns } clauses
          others) ({ result with columns := wider }, final)

/-- Gathering a prepared bucket gives what was gathered, and the keys that are added between
the columns. -/
def GathersBucket (schema : Schema) (place : Path) (path : List String)
    (bucket prepared : Bucket) (findings found : Findings) (gathered : Gathered) : Prop :=
  ∃ wider keys items, found.added = findings.added ++ keys ∧
    List.Forall₂ (KeyItem schema place path bucket.columns bucket.elements) keys items ∧
      Inserts items gathered.columns wider ∧
        schema.Gives (gather schema place prepared) { gathered with columns := wider }

section Steps

variable {element : Element} {rest others : List Element} {findings found : Findings}
  {added columns further : List Sql.SelectItem} {start next result : Gathered}
  {clauses later final : ClauseSet}

/-- A bucket is gathered from its elements, and then from its clauses, which do not depend on
the columns. -/
theorem GathersKeys.bucket {bucket : Bucket} {gathered : Gathered} {memo after : Memo}
    (hplace : place.Keyed) (hclauses : clauses.Named KeyName) (hexact : Memo.Exact schema memo)
    (hrun : Succeeds (Plan.gatherClauses schema place gathered clauses) memo result after)
    (helements : GathersKeys schema place path bucket.columns bucket.elements others findings found
      [] [] {} {} gathered clauses) :
    Memo.Exact schema after ∧ GathersBucket schema place path bucket
      { bucket with elements := others } findings found result := by
  obtain ⟨hafter, hcolumns, hclausesGive⟩ :=
    Plan.gatherClauses_gives hplace hclauses hexact hrun
  obtain ⟨wider, keys, items, hfound, hitems, hinserts, hgives⟩ := helements
  refine ⟨hafter, wider, keys, items, hfound, hitems, ?_, ?_⟩
  · rwa [hcolumns]
  · rw [gather]
    exact (hgives bucket.name).bind (hclausesGive wider)

/-- An element that is kept is gathered before the others. -/
theorem GathersKeys.cons
    (hrest : GathersKeys schema place path requested rest others findings found added further next
      later result final)
    (hstep : ∀ name value, schema.Gives (gatherElements schema place name
        { next with columns := further } later others) value →
      schema.Gives (gatherElements schema place name { start with columns } clauses
        (element :: others)) value) :
    GathersKeys schema place path requested (element :: rest) (element :: others) findings found
      added columns start clauses result final := by
  obtain ⟨wider, keys, items, hfound, hitems, hinserts, hgives⟩ := hrest
  refine ⟨wider, keys, items, hfound, hitems.imp fun _ _ => KeyItem.cons, hinserts, ?_⟩
  exact fun name => hstep name _ (hgives name)

/-- A nested bucket that is read later is not gathered, and its key may be added. -/
theorem GathersKeys.deferred (hlists : schema.ListsTargets) (hplace : place.Keyed)
    {child : Bucket} {link : Link} (hname : KeyName link.source.name)
    (hlink : schema.linkBetween place (place.child child.step) = .ok (some link))
    (hdeferred : link.isDeferred = true) (hinserts : Inserts added start.columns columns)
    (hrest : ∀ {added columns}, Inserts added start.columns columns →
      GathersKeys schema place path requested rest others
        { (findings.needKey requested ⟨path, link.source.name⟩).2 with
          deferred := (findings.needKey requested ⟨path, link.source.name⟩).2.deferred ++
            [⟨path, child.outputName, link, child⟩] } found added columns start clauses result
        final) :
    GathersKeys schema place path requested (.bucket child :: rest)
      ((findings.needKey requested ⟨path, link.source.name⟩).1 ++ others) findings found added
      columns start clauses result final := by
  rcases needKey_cases findings requested ⟨path, link.source.name⟩ with
    ⟨-, hsame⟩ | ⟨hunasked, hsame⟩
  · rw [hsame] at hrest ⊢
    obtain ⟨wider, keys, items, hfound, hitems, hwider, hgives⟩ := hrest hinserts
    exact ⟨wider, keys, items, hfound, hitems.imp fun _ _ => KeyItem.cons, hwider, hgives⟩
  · rw [hsame] at hrest ⊢
    obtain ⟨column, hcolumn⟩ := exists_keyColumn hlists hlink hdeferred
    have hkey : Inserts (added ++ [column.item]) start.columns (columns ++ [column.item]) := by
      have hboth := hinserts.append (.all [column.item])
      rwa [List.append_nil] at hboth
    obtain ⟨wider, keys, items, hfound, hitems, hwider, hgives⟩ := hrest hkey
    refine ⟨wider, ⟨path, link.source.name⟩ :: keys, column.item :: items, ?_, ?_, ?_, ?_⟩
    · rw [hfound, List.append_assoc, List.singleton_append]
    · refine .cons ?_ (hitems.imp fun _ _ => KeyItem.cons)
      exact .own List.mem_cons_self hlink hdeferred hunasked hcolumn
    · rwa [List.append_assoc, List.singleton_append] at hwider
    · intro name
      have hasked : Address.Keyed ⟨link.source.name, place⟩ := ⟨hplace, hname⟩
      rw [List.singleton_append, gatherElements]
      exact (Schema.gives_column hasked hcolumn).adapt.bind (hgives name)

/-- A joined bucket is joined, and its keys stand among its columns. -/
theorem GathersKeys.joined {child : Bucket} {link : Link} {join : Plan.KnownJoin}
    {inner : List Element} {middle : Findings} {below : Gathered}
    (hlink : schema.linkBetween place (place.child child.step) = .ok (some link))
    (hjoined : link.isDeferred = false)
    (hjoin : schema.Gives (Plan.joinOf? schema place (place.child child.step)) (some join))
    (hbelow : GathersBucket schema (place.child child.step) (path ++ [child.outputName]) child
      { child with elements := inner } findings middle below)
    (hinserts : Inserts added start.columns columns)
    (hrest : ∀ {added columns}, Inserts added ((start.addJoin join).absorb below).columns columns →
      GathersKeys schema place path requested rest others middle found added columns
        ((start.addJoin join).absorb below) clauses result final) :
    GathersKeys schema place path requested (.bucket child :: rest)
      (.bucket { child with elements := inner } :: others) findings found added columns start
      clauses result final := by
  obtain ⟨deeper, innerKeys, innerItems, hmiddle, hinnerItems, hinnerInserts, hgather⟩ := hbelow
  have hmore : Inserts (added ++ innerItems) ((start.addJoin join).absorb below).columns
      (columns ++ deeper) := by
    rw [Gathered.absorb_eq, Gathered.addJoin_eq]
    exact hinserts.append hinnerInserts
  obtain ⟨wider, keys, items, hfound, hitems, hwider, hgives⟩ := hrest hmore
  refine ⟨wider, innerKeys ++ keys, innerItems ++ items, ?_, ?_, ?_, ?_⟩
  · rw [hfound, hmiddle, List.append_assoc]
  · apply List.rel_append
    · exact hinnerItems.imp fun _ _ => .through List.mem_cons_self hlink hjoined
    · exact hitems.imp fun _ _ => KeyItem.cons
  · rwa [List.append_assoc] at hwider
  · intro name
    have hnext := hgives name
    rw [← Gathered.absorb_withColumns, ← Gathered.addJoin_withColumns] at hnext
    rw [gatherElements]
    exact hjoin.adapt.bind (hgather.bind hnext)

end Steps

/-- However elements are prepared, gathering what comes of it goes along with gathering them:
a joined bucket is joined, one that is read later is left out, and the keys are columns like any
other. -/
def GathersAlong (schema : Schema) (place : Path) (elements : List Element) (start : Gathered)
    (clauses : ClauseSet) (memo : Memo) (result : Gathered) (final : ClauseSet) (after : Memo) :
    Prop :=
  Path.Plain place → NamedElements PlainName elements → clauses.Named KeyName →
    Memo.Exact schema memo → (Memo.Exact schema after ∧ final.Named KeyName) ∧
      ∀ {path requested findings found others added columns},
        Prepares schema place path requested findings elements others found →
        Inserts added start.columns columns →
          GathersKeys schema place path requested elements others findings found added columns
            start clauses result final

namespace GathersAlong

variable {rest : List Element} {nested : Bucket} {start next result : Gathered}
  {clauses later final : ClauseSet} {memo middle after : Memo}

theorem nil : GathersAlong schema place [] start clauses memo start clauses memo := by
  intro _ _ hclauses hexact
  refine ⟨⟨hexact, hclauses⟩, fun {_ _ _ _ _ _ columns} hprepares hinserts => ?_⟩
  cases hprepares
  refine ⟨columns, [], [], (List.append_nil _).symm, .nil, ?_, fun name => ?_⟩
  · rwa [List.append_nil]
  · rw [gatherElements]
    exact .pure _

theorem column {name : String} {resolved : ResolvedColumn}
    (hcolumn : Succeeds (schema.column ⟨name, place⟩) memo resolved middle)
    (hrest : GathersAlong schema place rest
      { start with columns := start.columns ++ [resolved.item] } clauses middle result final
      after) :
    GathersAlong schema place (.item (.column name) :: rest) start clauses memo result final
      after := by
  intro hplace hnamed hclauses hexact
  have hname : PlainName name := hnamed.own _ List.mem_cons_self
  have hasked : Address.Keyed ⟨name, place⟩ := ⟨hplace.keyed, hname.keyName⟩
  obtain ⟨hmiddle, hgives⟩ := Schema.steady_column hasked _ _ _ hexact hcolumn
  obtain ⟨hafter, hothers⟩ := hrest hplace hnamed.tail hclauses hmiddle
  refine ⟨hafter, fun {_ _ _ _ _ added columns} hprepares hinserts => ?_⟩
  obtain ⟨others, rfl, hprepared⟩ := hprepares.of_other rfl
  have hmore : Inserts added (start.columns ++ [resolved.item]) (columns ++ [resolved.item]) := by
    have hboth := hinserts.append (.refl [resolved.item])
    rwa [List.append_nil] at hboth
  refine (hothers hprepared hmore).cons fun name value hvalue => ?_
  rw [gatherElements]
  exact hgives.adapt.bind hvalue

/-- An element that asks the schema nothing and adds no column is gathered as it was. -/
theorem kept {element : Element}
    (hrest : GathersAlong schema place rest next later memo result final after)
    (hother : element.bucket? = none) (hcolumns : next.columns = start.columns)
    (hlater : NamedElements PlainName (element :: rest) → clauses.Named KeyName →
      later.Named KeyName)
    (hstep : ∀ name columns others value, schema.Gives (gatherElements schema place name
        { next with columns } later others) value →
      schema.Gives (gatherElements schema place name { start with columns } clauses
        (element :: others)) value) :
    GathersAlong schema place (element :: rest) start clauses memo result final after := by
  intro hplace hnamed hclauses hexact
  obtain ⟨hafter, hothers⟩ := hrest hplace hnamed.tail (hlater hnamed hclauses) hexact
  refine ⟨hafter, fun hprepares hinserts => ?_⟩
  obtain ⟨others, rfl, hprepared⟩ := hprepares.of_other hother
  exact (hothers hprepared (hcolumns ▸ hinserts)).cons fun name => hstep name _ others

/-- From every exact memory the join of a nested bucket is found alike, if its link is not left
to a statement of its own. -/
theorem gives_joinOf? (hschema : schema.Plain) (hplace : Path.Plain place)
    (hchild : Path.Plain (place.child nested.step)) (hexact : Memo.Exact schema memo)
    {join : Option Plan.KnownJoin}
    (hjoin : Succeeds (Plan.joinOf? schema place (place.child nested.step)) memo join middle) :
    Memo.Exact schema middle ∧
      schema.Gives (Plan.joinOf? schema place (place.child nested.step)) join ∧
      ∀ {link}, schema.linkBetween place (place.child nested.step) = .ok (some link) →
        link.isDeferred = !join.isSome := by
  obtain ⟨hmiddle, hgives⟩ :=
    Plan.steady_joinOf? hschema hplace.keyed hchild.keyed _ _ _ hexact hjoin
  refine ⟨hmiddle, hgives, fun hlink => ?_⟩
  rw [Plan.joinOf?_isSome hschema hplace hchild hlink hexact hjoin, Bool.not_not]

theorem deferred (hschema : schema.Plain) (hlists : schema.ListsTargets)
    (hjoin : Succeeds (Plan.joinOf? schema place (place.child nested.step)) memo none middle)
    (hrest : GathersAlong schema place rest start clauses middle result final after) :
    GathersAlong schema place (.bucket nested :: rest) start clauses memo result final after := by
  intro hplace hnamed hclauses hexact
  have hnested : nested.Named PlainName := hnamed.children nested List.mem_cons_self
  have hchild : Path.Plain (place.child nested.step) :=
    hplace.child (hnested nested .self).1.plain
  obtain ⟨hmiddle, -, hkind⟩ := gives_joinOf? hschema hplace hchild hexact hjoin
  obtain ⟨hafter, hothers⟩ := hrest hplace hnamed.tail hclauses hmiddle
  refine ⟨hafter, fun hprepares hinserts => ?_⟩
  cases hprepares with
  | other hother => cases hother
  | joined hlink hjoined => cases hjoined.symm.trans (hkind hlink)
  | deferred hlink hdeferred hprepared =>
      have hkey := ((Schema.linkBetween_ok hlink).plainNames hschema).1
      exact .deferred hlists hplace.keyed hkey.keyName hlink hdeferred hinserts
        fun hcolumns => hothers hprepared hcolumns

theorem joined (hschema : schema.Plain) {join : Plan.KnownJoin} {inner below : Gathered}
    {innerClauses : ClauseSet} {first second : Memo}
    (hjoin : Succeeds (Plan.joinOf? schema place (place.child nested.step)) memo (some join) first)
    (hinside : GathersAlong schema (place.child nested.step) nested.elements {} {} first inner
      innerClauses second)
    (hgather : Succeeds
      (Plan.gatherClauses schema (place.child nested.step) inner innerClauses) second below middle)
    (hrest : GathersAlong schema place rest ((start.addJoin join).absorb below) clauses middle
      result final after) :
    GathersAlong schema place (.bucket nested :: rest) start clauses memo result final after := by
  intro hplace hnamed hclauses hexact
  have hnested : nested.Named PlainName := hnamed.children nested List.mem_cons_self
  have hchild : Path.Plain (place.child nested.step) :=
    hplace.child (hnested nested .self).1.plain
  obtain ⟨hfirst, hgives, hkind⟩ := gives_joinOf? hschema hplace hchild hexact hjoin
  obtain ⟨⟨hsecond, hinnerClauses⟩, hwithin⟩ :=
    hinside hchild hnested.elements ⟨nofun, nofun⟩ hfirst
  obtain ⟨hmiddle, -⟩ := Plan.gatherClauses_gives hchild.keyed hinnerClauses hsecond hgather
  obtain ⟨hafter, hothers⟩ := hrest hplace hnamed.tail hclauses hmiddle
  refine ⟨hafter, fun hprepares hinserts => ?_⟩
  cases hprepares with
  | other hother => cases hother
  | deferred hlink hdeferred => cases hdeferred.symm.trans (hkind hlink)
  | joined hlink hjoined hinner hprepared =>
      have hbelow := ((hwithin hinner (.refl [])).bucket hchild.keyed hinnerClauses hsecond
        hgather).2
      exact .joined hlink hjoined hgives hbelow hinserts fun hcolumns => hothers hprepared hcolumns

end GathersAlong

/-- Gathering prepared elements goes along with gathering the elements, by induction on how
that went. -/
theorem gathersAlong_of_run (hschema : schema.Plain) (hlists : schema.ListsTargets)
    {start result : Gathered} {clauses final : ClauseSet} {memo after : Memo}
    (hrun : GatherRun schema place elements start clauses memo result final after) :
    GathersAlong schema place elements start clauses memo result final after := by
  induction hrun with
  | nil => exact .nil
  | column hcolumn _ ih => exact .column hcolumn ih
  | deferred hjoin _ ih => exact .deferred hschema hlists hjoin ih
  | joined hjoin _ hgather _ ihnested ihrest => exact .joined hschema hjoin ihnested hgather ihrest
  | row hroot _ ih =>
      refine ih.kept rfl rfl (fun _ => id) fun name columns others value hvalue => ?_
      rw [gatherElements, if_neg hroot.not_gt]
      exact hvalue
  | clause hpush _ ih =>
      refine ih.kept rfl rfl (fun hnamed hclauses => ?_) fun name columns others value hvalue => ?_
      · have hexpression : Expression.Named PlainName _ := hnamed.own _ List.mem_cons_self
        exact hclauses.push (fun clause hclause => (hexpression clause hclause).keyName) hpush
      · rw [gatherElements]
        exact (Schema.Gives.liftExcept hpush).bind hvalue
  | limit _ ih | offset _ ih | total _ ih | beacon _ ih =>
      refine ih.kept rfl rfl (fun _ => id) fun name columns others value hvalue => ?_
      rw [gatherElements]
      exact hvalue

/-! ## The query of a prepared bucket -/

/-- The total of a bucket as part of the select list. -/
def Reader.totalItems (reader : Reader) (bucket : Bucket) : List Sql.SelectItem :=
  if bucket.hasTotal then [Plan.totalItem reader.totalField] else []

variable {reader : Reader} {bucket prepared : Bucket} {found : Findings} {query : Sql.Query}
  {memo other middle after : Memo}

/-- A bucket that becomes a query becomes the same query once it is prepared, except that the
keys that were added are selected as well. -/
theorem prepared_build (hlists : reader.schema.ListsTargets) (hschema : reader.schema.Plain)
    (hextensions : reader.extensions = []) (hnamed : bucket.Named PlainName)
    (hexact : Memo.Exact reader.schema memo)
    (hbuild : Succeeds (reader.planner.build bucket) memo (.select query) after)
    (hprepared : prepared = { bucket with elements := prepared.elements })
    (hprepares : Prepares reader.schema bucket.rootPath [] bucket.columns {} bucket.elements
      prepared.elements found) :
    ∃ columns wider items, query.items = columns ++ reader.totalItems bucket ∧
      Inserts items columns wider ∧
        List.Forall₂ (KeyItem reader.schema bucket.rootPath [] bucket.columns bucket.elements)
          found.added items ∧
          reader.schema.Gives (reader.planner.build prepared)
            (.select { query with items := wider ++ reader.totalItems bucket }) := by
  obtain ⟨gathered, last, hgather, hplans⟩ := Plan.Planner.build_plans hbuild
  obtain ⟨inner, clauses, second, helements, hclauses⟩ := Plan.gather_run hgather
  have hroot : Path.Plain bucket.rootPath := hnamed.plain.rootPath
  obtain ⟨⟨hsecond, hcollected⟩, hkeys⟩ :=
    gathersAlong_of_run hschema hlists helements hroot hnamed.elements ⟨nofun, nofun⟩ hexact
  obtain ⟨hlast, hbucket⟩ :=
    (hkeys hprepares (.refl [])).bucket hroot.keyed hcollected hsecond hclauses
  rw [← hprepared] at hbucket
  obtain ⟨wider, keys, items, hfound, hitems, hinserts, hgathers⟩ := hbucket
  cases hplans with
  | @select parts hasks hrows hparts =>
      obtain ⟨htotal, hreads⟩ := Plan.gather_asks hgather
      have htotals : reader.totalItems bucket =
          if gathered.total then [Plan.totalItem reader.planner.totalField] else [] := by
        rw [Reader.totalItems, htotal]
        rfl
      have hselects : parts.query.items = gathered.columns ++ reader.totalItems bucket := by
        obtain ⟨table, -, rfl⟩ := Plan.Planner.parts_eq (.inl hextensions) hparts
        rw [htotals]
        rfl
      have hasksWider : wider ≠ [] ∨ gathered.total = true := by
        refine hasks.imp_left fun hsome hnone => hsome ?_
        exact List.sublist_nil.mp (hnone ▸ hinserts.sublist)
      -- both buckets read data, so they stand at the same root
      have hsame : prepared.rootPath = bucket.rootPath := by
        obtain ⟨_, hrun, -⟩ := hgathers {} (.empty reader.schema)
        have hpreparedReads := (Plan.gather_asks hrun).2 hasksWider
        have hstep : prepared.step = bucket.step := by
          rw [hprepared]
          rfl
        rw [Bucket.rootPath, Bucket.rootPath, if_pos hpreparedReads, if_pos (hreads hasks), hstep]
      have hpartsGive :=
        Plan.Planner.parts_gives hextensions hroot.keyed hlast hparts wider
      refine ⟨gathered.columns, wider, items, hselects, hinserts, ?_, ?_⟩
      · rwa [hfound, List.nil_append]
      · rw [← hsame] at hgathers hpartsGive
        rw [htotals]
        exact reader.planner.build_gives hgathers hasksWider hrows hpartsGive

end Session

end TreeQuery
