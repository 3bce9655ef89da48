import TreeQuery.Proofs.Session.Attachment
import TreeQuery.Proofs.Session.Depth
import TreeQuery.Proofs.Session.Guards
import TreeQuery.Proofs.Session.KeyedQueries

/-!
# The primary query

Reading a bucket first sends the query that is planned for it, with the keys added by which
other buckets are found later.  Of a nested bucket that is read later, nothing but its name
and its qualifier matters to this query, and so to the rows that become the records of the
view.
-/

namespace TreeQuery

namespace Catalog

/-- What a deferred bucket is found by: the column at its parent, and whether its link is
deferred at all. -/
def Link.start (link : Link) : Address × Bool :=
  (link.source, link.isDeferred)

/-- The label of a step names its data and does not take part in relating it. -/
theorem Schema.linkBetween_label (schema : Schema) (source place : Path) (step : Step)
    (label : Option String) :
    (schema.linkBetween source (place.child { step with label })).map (Option.map Link.start) =
      (schema.linkBetween source (place.child step)).map (Option.map Link.start) := by
  have hleads : (fun key : ForeignKey => key.leadsTo { step with label }) =
      fun key => key.leadsTo step := rfl
  have hkeys (interim : String) (parent : Step) :
      schema.junctionKeys? interim parent { step with label } =
        schema.junctionKeys? interim parent step := rfl
  have hcandidates (parent : Step) : schema.junctionCandidates parent { step with label } =
      schema.junctionCandidates parent step := rfl
  rw [linkBetween, linkBetween, Path.child, Path.child, List.getLast?_concat,
    List.getLast?_concat]
  cases source.getLast? with
  | none => rfl
  | some parent =>
      dsimp only
      rw [manyToOne?, manyToOne?, oneToMany?, oneToMany?, hleads]
      cases (schema.graph.outgoing source.tableName).find? fun key => key.leadsTo step with
      | some key => rfl
      | none =>
          dsimp only [Option.map_none]
          cases (schema.graph.outgoing step.name).find? fun key =>
              key.leadsTo { name := parent.name, qualifier := step.qualifier } with
          | some key => rfl
          | none =>
              rw [Option.map_none, manyToMany?, manyToMany?, hcandidates]
              cases schema.chosenJunction? parent.name step.name with
              | some interim =>
                  dsimp only
                  rw [hkeys]
                  cases schema.junctionKeys? interim parent step <;> rfl
              | none =>
                  rcases schema.junctionCandidates parent step with _ | ⟨candidate, _ | _⟩ <;> rfl

/-- Under another label a step is found by the same column, and is deferred alike. -/
theorem Schema.linkBetween_relabelled {schema : Schema} {source place : Path} {step : Step}
    {link : Link} (hlink : schema.linkBetween source (place.child step) = .ok (some link))
    (label : Option String) :
    ∃ other, schema.linkBetween source (place.child { step with label }) = .ok (some other) ∧
      other.source = link.source ∧ other.isDeferred = link.isDeferred := by
  have hstart := schema.linkBetween_label source place step label
  rw [hlink] at hstart
  obtain ⟨known, hknown, hmap⟩ := map_ok_iff.mp hstart
  obtain ⟨other, rfl, hparts⟩ := Option.map_eq_some_iff.mp hmap
  exact ⟨other, hknown, Prod.mk.inj hparts⟩

end Catalog

namespace Session

open Catalog (Link Memo Schema)

/-! ## Requests that are alike -/

/-- Elements at a place are alike except for nested buckets that are read later: of those only
the names and the qualifiers agree. -/
inductive AlikeAbove (schema : Schema) : Path → List Element → List Element → Prop
  | nil {place : Path} : AlikeAbove schema place [] []
  | deferred {place : Path} {child other : Bucket} {link : Link} {rest others : List Element}
      (hname : other.name = child.name) (hqualifier : other.qualifier = child.qualifier)
      (hlink : schema.linkBetween place (place.child child.step) = .ok (some link))
      (hdeferred : link.isDeferred = true) (hrest : AlikeAbove schema place rest others) :
      AlikeAbove schema place (.bucket child :: rest) (.bucket other :: others)
  | nested {place : Path} {child : Bucket} {inner rest others : List Element}
      (hchild : AlikeAbove schema (place.child child.step) child.elements inner)
      (hrest : AlikeAbove schema place rest others) :
      AlikeAbove schema place (.bucket child :: rest)
        (.bucket { child with elements := inner } :: others)
  | other {place : Path} {element : Element} {rest others : List Element}
      (hother : element.bucket? = none) (hrest : AlikeAbove schema place rest others) :
      AlikeAbove schema place (element :: rest) (element :: others)

mutual

theorem AlikeAbove.of_bucket (schema : Schema) : ∀ (bucket : Bucket) (place : Path),
    AlikeAbove schema place bucket.elements bucket.elements
  | ⟨_, _, _, elements⟩, place => AlikeAbove.refl schema elements place

theorem AlikeAbove.refl (schema : Schema) : ∀ (elements : List Element) (place : Path),
    AlikeAbove schema place elements elements
  | [], _ => .nil
  | .bucket ⟨name, qualifier, label, elements⟩ :: rest, place =>
      .nested (AlikeAbove.of_bucket schema ⟨name, qualifier, label, elements⟩ _)
        (AlikeAbove.refl schema rest place)
  | .item _ :: rest, place | .clause _ :: rest, place | .slice _ :: rest, place
  | .total :: rest, place | .beacon _ :: rest, place =>
      .other rfl (AlikeAbove.refl schema rest place)

end

variable {schema : Schema} {place : Path} {path requested : List String}
  {elements others twins : List Element} {findings found : Findings}

/-- What elements other than nested buckets say is the same. -/
theorem AlikeAbove.filterMap_eq {α : Type} {see : Element → Option α}
    (hbuckets : ∀ child, see (.bucket child) = none)
    (halike : AlikeAbove schema place elements twins) :
    twins.filterMap see = elements.filterMap see := by
  induction halike with
  | nil => rfl
  | deferred _ _ _ _ _ ih =>
      rw [List.filterMap_cons_none (hbuckets _), List.filterMap_cons_none (hbuckets _), ih]
  | nested _ _ _ ih =>
      rw [List.filterMap_cons_none (hbuckets _), List.filterMap_cons_none (hbuckets _), ih]
  | other _ _ ih => rw [List.filterMap_cons, List.filterMap_cons, ih]

theorem AlikeAbove.readsData_eq (halike : AlikeAbove schema place elements twins) :
    twins.any Bucket.readsData = elements.any Bucket.readsData := by
  induction halike with
  | nil => rfl
  | deferred => rfl
  | nested => rfl
  | other _ _ ih => rw [List.any_cons, List.any_cons, ih]

theorem AlikeAbove.of_bucket_cons {child : Bucket}
    (halike : AlikeAbove schema place (.bucket child :: elements) twins) :
    ∃ twin others, twins = .bucket twin :: others ∧ AlikeAbove schema place elements others ∧
      twin.step = { child.step with label := twin.label } := by
  cases halike with
  | deferred hname hqualifier _ _ hrest =>
      refine ⟨_, _, rfl, hrest, ?_⟩
      rw [Bucket.step, Bucket.step, hname, hqualifier]
  | nested _ hrest => exact ⟨_, _, rfl, hrest, rfl⟩
  | other hother => cases hother

/-- A bucket and its twin stand for the same step, and their elements are alike. -/
structure Twins (schema : Schema) (bucket twin : Bucket) : Prop where
  step : twin.step = bucket.step
  elements : AlikeAbove schema bucket.rootPath bucket.elements twin.elements

theorem Twins.refl (schema : Schema) (bucket : Bucket) : Twins schema bucket bucket :=
  ⟨rfl, .refl schema bucket.elements bucket.rootPath⟩

theorem Twins.rootPath_eq {bucket twin : Bucket} (htwins : Twins schema bucket twin) :
    twin.rootPath = bucket.rootPath := by
  have hreads : twin.isProjection = bucket.isProjection := htwins.elements.readsData_eq
  rw [Bucket.rootPath, Bucket.rootPath, hreads, htwins.step]

/-! ## Preparing what is alike -/

/-- Whether a key is added depends only on what was asked for and on the keys before. -/
theorem needKey_congr {start : Findings} (hadded : start.added = findings.added)
    (requested : List String) (key : AddedKey) :
    (start.needKey requested key).1 = (findings.needKey requested key).1 ∧
      (start.needKey requested key).2.added = (findings.needKey requested key).2.added := by
  rw [Findings.needKey, Findings.needKey, hadded]
  split
  · exact ⟨rfl, hadded⟩
  · exact ⟨rfl, rfl⟩

/-- Elements that are alike are prepared to the same elements, with the same keys. -/
theorem Prepares.alike
    (hprepares : Prepares schema place path requested findings elements others found)
    {start : Findings} (halike : AlikeAbove schema place elements twins)
    (hadded : start.added = findings.added) :
    ∃ finish, finish.added = found.added ∧
      Prepares schema place path requested start twins others finish := by
  induction hprepares generalizing twins start with
  | nil =>
      cases halike with
      | nil => exact ⟨start, hadded, .nil⟩
  | @deferred place path requested findings after child link rest others hlink hdeferred _ ih =>
      obtain ⟨twin, behind, rfl, hrest, hstep⟩ := halike.of_bucket_cons
      obtain ⟨relabelled, hrelabelled, hsource, hkind⟩ :=
        Schema.linkBetween_relabelled hlink twin.label
      rw [← hstep] at hrelabelled
      obtain ⟨hsame, hmore⟩ := needKey_congr hadded requested ⟨path, link.source.name⟩
      rw [← hsource] at hsame hmore ⊢
      obtain ⟨finish, hfinish, htwins⟩ := @ih behind
        { (start.needKey requested ⟨path, relabelled.source.name⟩).2 with
          deferred := (start.needKey requested ⟨path, relabelled.source.name⟩).2.deferred ++
            [⟨path, twin.outputName, relabelled, twin⟩] } hrest (by rw [hmore, hsource])
      refine ⟨finish, hfinish, ?_⟩
      rw [← hsame]
      exact .deferred hrelabelled (hkind.trans hdeferred) htwins
  | @joined place path requested findings middle after child link elements rest others hlink
      hjoined _ _ ihchild ihrest =>
      cases halike with
      | other hother => cases hother
      | deferred _ _ hother hdeferred =>
          rw [← Schema.linkBetween_unique hlink hother, hjoined] at hdeferred
          cases hdeferred
      | @nested _ _ inner _ behind hchild hrest =>
          have hcolumns : Bucket.columns { child with elements := inner } = child.columns :=
            hchild.filterMap_eq fun _ => rfl
          obtain ⟨found, hfound, hinner⟩ := ihchild hchild hadded
          obtain ⟨finish, hfinish, hothers⟩ := ihrest hrest hfound
          rw [← hcolumns] at hinner
          have htwins : Prepares schema place path requested start
              (.bucket { child with elements := inner } :: behind)
              (.bucket { child with elements } :: others) finish :=
            .joined hlink hjoined hinner hothers
          exact ⟨finish, hfinish, htwins⟩
  | other hother _ ih =>
      cases halike with
      | deferred => cases hother
      | nested => cases hother
      | other _ hrest =>
          obtain ⟨finish, hfinish, hothers⟩ := ih hrest hadded
          exact ⟨finish, hfinish, .other hother hothers⟩

/-- A bucket is prepared when its elements are. -/
theorem prepare_gives {bucket : Bucket}
    (helements : schema.Gives (prepareElements schema place path bucket.columns findings
      bucket.elements) (others, found)) :
    schema.Gives (prepare schema place path findings bucket)
      ({ bucket with elements := others }, found) := by
  obtain ⟨name, qualifier, label, elements⟩ := bucket
  rw [prepare]
  exact helements.bind (.pure _)

/-- What preparing can make of elements it makes of them from every exact memory. -/
theorem Prepares.gives
    (hprepares : Prepares schema place path requested findings elements others found)
    (hplace : Path.Plain place) (hplain : PlainElements elements) :
    schema.Gives (prepareElements schema place path requested findings elements)
      (others, found) := by
  induction hprepares with
  | nil =>
      rw [prepareElements]
      exact .pure _
  | deferred hlink hdeferred _ ih =>
      have hchild := hplace.child (hplain.step List.mem_cons_self)
      rw [prepareElements]
      refine (Schema.gives_link hplace.keyed hchild.keyed hlink).adapt.bind ?_
      rw [if_pos hdeferred]
      exact (ih hplace hplain.tail).bind (.pure _)
  | joined hlink hjoined _ _ ihchild ihrest =>
      have hchild := hplace.child (hplain.step List.mem_cons_self)
      have hinner := hplain.child List.mem_cons_self
      rw [prepareElements]
      refine (Schema.gives_link hplace.keyed hchild.keyed hlink).adapt.bind ?_
      rw [if_neg (Bool.eq_false_iff.mp hjoined)]
      refine (prepare_gives (ihchild hchild hinner)).bind ?_
      exact (ihrest hplace hplain.tail).bind (.pure _)
  | @other _ _ _ _ _ element _ _ hother _ ih =>
      have hrest := ih hplace hplain.tail
      cases element with
      | bucket child => cases hother
      | item | clause | slice | total | beacon =>
          rw [prepareElements]
          exact hrest.bind (.pure _)

/-- Twins are prepared to the same bucket. -/
theorem Twins.gives_prepared {bucket twin : Bucket} (htwins : Twins schema bucket twin)
    (hroot : Path.Plain bucket.rootPath) (hplain : twin.Plain)
    (hprepares :
      Prepares schema bucket.rootPath [] bucket.columns {} bucket.elements others found) :
    ∃ finish, schema.Gives (prepare schema twin.rootPath [] {} twin)
      ({ bucket with elements := others }, finish) := by
  obtain ⟨finish, -, htwin⟩ := hprepares.alike htwins.elements rfl
  have hcolumns : twin.columns = bucket.columns := htwins.elements.filterMap_eq fun _ => rfl
  rw [← hcolumns, ← htwins.rootPath_eq] at htwin
  rw [← htwins.rootPath_eq] at hroot
  have hgives := prepare_gives (htwin.gives hroot (.of_bucket hplain))
  obtain ⟨hname, hqualifier, hlabel⟩ := Step.mk.inj htwins.step
  rw [hname, hqualifier, hlabel] at hgives
  exact ⟨finish, hgives⟩

/-! ## Reading -/

/-- From every state with an exact memory, reading a bucket executes a query before anything
else, and a view that is read holds one record for every row of the answer. -/
def Reader.SendsFirst (reader : Reader) (bucket : Bucket) (query : Sql.Query) : Prop :=
  ∀ start : State, Memo.Exact reader.schema start.memo → ∃ outcome later finish,
    Makes (reader.read bucket) start outcome (.execute (.select query) :: later) finish ∧
      ∀ view, outcome = .ok view → ∃ answer,
        reader.connection.execute start.history (.select query) = .ok answer ∧
          view.data.length = answer.toRows.length

variable {reader : Reader} {bucket prepared : Bucket} {query : Sql.Query}

/-- Whatever a step leads to, its own calls come first. -/
theorem Makes.exists_bind {α β : Type} {first : Run α} {next : α → Run β} {start middle : State}
    {outcome : Except Failure α} {calls : List Call} {kind : Call → Prop}
    (hfirst : Makes first start outcome calls middle)
    (hnext : ∀ value, OnlyCalls kind (next value)) :
    ∃ result later finish, Makes (first >>= next) start result (calls ++ later) finish := by
  cases outcome with
  | error failure =>
      refine ⟨.error failure, [], middle, ?_⟩
      rw [List.append_nil]
      exact hfirst.bind_error
  | ok value =>
      obtain ⟨result, later, finish, hlater, -⟩ := hnext value middle
      exact ⟨result, later, finish, hfirst.bind hlater⟩

/-- The rows of a bucket are read by its query. -/
theorem fetchRows_makes {name : String} {start : State} {after : Memo}
    (hbuild : Succeeds (reader.planner.build prepared) start.memo (.select query) after) :
    Makes (reader.fetchRows name prepared) start
      (((reader.connection.execute start.history (.select query)).mapError .connection).map
        Outcome.toRows) [.execute (.select query)]
      (State.called { start with memo := after } (.execute (.select query))) := by
  have hcall := Makes.record (.execute (.select query))
    (fun history => reader.connection.execute history (.select query))
    { start with memo := after }
  exact (Makes.planning hbuild).bind (hcall.map Outcome.toRows)

/-- A fetch starts with the query that is planned for the prepared bucket. -/
theorem fetch_makes_planned {depth : Nat} {start : State} {first second : Memo}
    (hprepare : Succeeds (prepare reader.schema bucket.rootPath [] {} bucket) start.memo
      (prepared, found) first)
    (hbuild : Succeeds (reader.planner.build prepared) first (.select query) second) :
    ∃ outcome later finish, Makes (reader.fetch (depth + 1) bucket) start outcome
      (.execute (.select query) :: later) finish := by
  have hlater (rows : List Record) : OnlyCalls Call.Queries (do
      let kept := reader.takeTotal prepared rows
      let records := kept.1.map Record.unflatten
      let children ← found.deferred.mapM (Reader.fetchChildren (reader.fetch depth) records)
      liftExcept <| reader.report bucket.beacons
        ⟨reader.assemble found records children, kept.2⟩) := by
    refine OnlyCalls.bind (.mapM fun deferred _ => ?_) fun _ _ _ _ => .liftExcept _
    exact Reader.fetchChildren_queries (Reader.fetch_queries depth) _ deferred
  have hrows : Makes (reader.fetchRows bucket.name prepared) { start with memo := first } _ _ _ :=
    fetchRows_makes hbuild
  obtain ⟨outcome, later, finish, hmakes⟩ := hrows.exists_bind hlater
  rw [Reader.fetch]
  exact ⟨outcome, later, finish, (Makes.planning hprepare).bind hmakes⟩

/-- From every exact memory, a fetch starts with the query of the prepared bucket. -/
theorem fetch_makes {depth : Nat} {start : State}
    (hexact : Memo.Exact reader.schema start.memo)
    (hprepare : reader.schema.Gives (prepare reader.schema bucket.rootPath [] {} bucket)
      (prepared, found))
    (hbuild : reader.schema.Gives (reader.planner.build prepared) (.select query)) :
    ∃ outcome later finish, Makes (reader.fetch (depth + 1) bucket) start outcome
      (.execute (.select query) :: later) finish := by
  obtain ⟨first, hprepared, hfirst⟩ := hprepare start.memo hexact
  obtain ⟨second, hplanned, -⟩ := hbuild first hfirst
  exact fetch_makes_planned hprepared hplanned

/-- What a bucket is prepared to, and how that is planned, decides what is sent first. -/
theorem sendsFirst_of_gives (hextensions : reader.extensions = [])
    (hprepare : reader.schema.Gives (prepare reader.schema bucket.rootPath [] {} bucket)
      (prepared, found))
    (hbuild : reader.schema.Gives (reader.planner.build prepared) (.select query)) :
    reader.SendsFirst bucket query := by
  intro start hexact
  obtain ⟨depth, hdepth⟩ : ∃ depth, 2 * nestingDepth bucket = depth + 1 := by
    have hpositive := nestingDepth_pos bucket
    exact ⟨2 * nestingDepth bucket - 1, by omega⟩
  have hview (fetched : Fetched) : OnlyCalls Call.Queries
      (pure ⟨fetched.records.map .object, fetched.meta?⟩ : Run View) := .pure _
  obtain ⟨outcome, later, finish, hfetch⟩ := fetch_makes hexact hprepare hbuild
  obtain ⟨result, more, last, hread⟩ := hfetch.exists_bind hview
  rw [← hdepth] at hread
  refine ⟨result, later ++ more, last, hread, ?_⟩
  rintro view rfl
  have hrun : Succeeds (reader.read bucket) start view last := hread.run
  obtain ⟨fetched, middle, hfetched, hpure⟩ := Succeeds.bind_iff.mp hrun
  obtain ⟨rfl, -⟩ := Succeeds.pure_iff.mp hpure
  obtain ⟨_, _, _, _, answer, first, _, _, _, -, hprepared, hplanned, hanswer, -, -, hreport⟩ :=
    fetch_succeeds hfetched
  obtain ⟨hsame, hfirst⟩ := hprepare.eq_of_succeeds hexact hprepared
  obtain ⟨rfl, rfl⟩ := Prod.mk.inj hsame
  obtain ⟨hquery, -⟩ := hbuild.eq_of_succeeds hfirst hplanned
  obtain rfl := Sql.Statement.select.inj hquery
  rw [report_of_none hextensions] at hreport
  obtain rfl := Except.ok.inj hreport
  exact ⟨answer, hanswer, by rw [List.length_map, List.length_map]⟩

/-- A bucket that becomes a query, and that can be prepared, is read by that query first.  It
is sent with the same table, joins, condition, order, page and total, and between its columns
with the keys that preparation adds, each for a nested bucket that is read later.  What such a
bucket holds, and how it is labelled, changes nothing in what is sent. -/
theorem read_sends_planned_query {declarations : Catalog.Declarations}
    {memo other after last : Memo}
    (hbuilt : declarations.build = .ok reader.schema) (hschema : reader.schema.Plain)
    (hextensions : reader.extensions = []) (hnamed : bucket.Named PlainName)
    (hexact : Memo.Exact reader.schema memo)
    (hbuild : Succeeds (reader.planner.build bucket) memo (.select query) after)
    (hother : Memo.Exact reader.schema other)
    (hprepare : Succeeds (prepare reader.schema bucket.rootPath [] {} bucket) other
      (prepared, found) last) :
    ∃ columns wider items, query.items = columns ++ reader.totalItems bucket ∧
      List.Sublist columns wider ∧ List.Perm wider (columns ++ items) ∧
      List.Forall₂ (KeyItem reader.schema bucket.rootPath [] bucket.columns bucket.elements)
        found.added items ∧
      reader.SendsFirst bucket { query with items := wider ++ reader.totalItems bucket } ∧
      ∀ twin, Twins reader.schema bucket twin → twin.Named PlainName →
        reader.SendsFirst twin { query with items := wider ++ reader.totalItems bucket } := by
  have hlists := Schema.listsTargets_of_build hbuilt
  have hroot : Path.Plain bucket.rootPath := hnamed.plain.rootPath
  obtain ⟨-, hprepared, hprepares⟩ := prepare_succeeds hschema hother.faithful hroot
    (PlainElements.of_bucket hnamed.plain).descendAll hprepare
  obtain ⟨columns, wider, items, hselects, hinserts, hitems, hgives⟩ :=
    prepared_build hlists hschema hextensions hnamed hexact hbuild hprepared hprepares
  have htwins (twin : Bucket) (htwins : Twins reader.schema bucket twin)
      (htwin : twin.Named PlainName) :
      reader.SendsFirst twin { query with items := wider ++ reader.totalItems bucket } := by
    obtain ⟨finish, hsame⟩ := htwins.gives_prepared hroot htwin.plain hprepares
    rw [← hprepared] at hsame
    exact sendsFirst_of_gives hextensions hsame hgives
  refine ⟨columns, wider, items, hselects, hinserts.sublist, hinserts.perm, hitems, ?_, htwins⟩
  exact htwins bucket (.refl reader.schema bucket) hnamed

/-- Books, reviews and chapters as they are declared. -/
def chapterDeclarations : Catalog.Declarations where
  tables := chapteredBooks.tables
  customKeys := chapteredBooks.graph.foreignKeys

/-- Chapters are read with their books by the planned query, with the books' key added, which
the reviews need.  It does not matter what is asked for of the reviews. -/
theorem read_sends_planned_query_reviewedChapters : ∃ query prepared found,
    (∃ after, Succeeds (chapterReader.planner.build reviewedChapters) {} (.select query) after) ∧
    (∃ last, Succeeds (prepare chapteredBooks reviewedChapters.rootPath [] {} reviewedChapters)
      {} (prepared, found) last) ∧
    found.added = [⟨["book"], "id"⟩] ∧
    ∃ columns wider items, query.items = columns ++ chapterReader.totalItems reviewedChapters ∧
      List.Sublist columns wider ∧ List.Perm wider (columns ++ items) ∧
      List.Forall₂ (KeyItem chapterReader.schema reviewedChapters.rootPath []
        reviewedChapters.columns reviewedChapters.elements) found.added items ∧
      chapterReader.SendsFirst reviewedChapters
        { query with items := wider ++ chapterReader.totalItems reviewedChapters } ∧
      ∀ twin, Twins chapterReader.schema reviewedChapters twin → twin.Named PlainName →
        chapterReader.SendsFirst twin
          { query with items := wider ++ chapterReader.totalItems reviewedChapters } := by
  have hbuild : ∃ query after,
      Succeeds (chapterReader.planner.build reviewedChapters) {} (.select query) after :=
    ⟨_, _, rfl⟩
  have hprepare : ∃ prepared found last, Succeeds
      (prepare chapteredBooks reviewedChapters.rootPath [] {} reviewedChapters) {}
        (prepared, found) last ∧ found.added = [⟨["book"], "id"⟩] := ⟨_, _, _, rfl, rfl⟩
  obtain ⟨query, after, hbuild⟩ := hbuild
  obtain ⟨prepared, found, last, hprepare, hadded⟩ := hprepare
  have hbuilt : chapterDeclarations.build = .ok chapterReader.schema := rfl
  have hempty : Memo.Exact chapterReader.schema {} := .empty chapteredBooks
  exact ⟨query, prepared, found, ⟨after, hbuild⟩, ⟨last, hprepare⟩, hadded,
    read_sends_planned_query hbuilt (by decide) rfl (by decide) hempty hbuild hempty hprepare⟩

end Session

end TreeQuery
