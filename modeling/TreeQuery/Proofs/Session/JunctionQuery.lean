import TreeQuery.Proofs.Plan.TableNames
import TreeQuery.Proofs.Session.Junctions
import TreeQuery.Proofs.Session.PrimaryQuery

/-!
# The query of a junction

Many-to-many children are read by a query of their junction's table, to which their own table
is joined.  The join is found anew, by a qualifier that is cut from the name of the junction's
key.  It is made on the key of the link all the same, whatever other keys the junction has.
-/

namespace TreeQuery

open Catalog (Link Memo ResolvedColumn Schema)

/-! ## Links below other places -/

/-- Which links are deferred depends on the last table of the place only. -/
theorem Catalog.Schema.linkBetween_isDeferred (schema : Schema) {first second : Path}
    {parent other : Step} (hfirst : first.getLast? = some parent)
    (hsecond : second.getLast? = some other) (hname : parent.name = other.name) (step : Step) :
    (schema.linkBetween first (first.child step)).map (Option.map Link.isDeferred) =
      (schema.linkBetween second (second.child step)).map (Option.map Link.isDeferred) := by
  have hbare : parent.bare = other.bare := by rw [Step.bare, Step.bare, hname]
  have hkeys (interim : String) : schema.junctionKeys? interim parent step =
      schema.junctionKeys? interim other step := by
    rw [Schema.junctionKeys?, Schema.junctionKeys?, hbare]
  have hcandidates : schema.junctionCandidates parent step =
      schema.junctionCandidates other step := by
    rw [Schema.junctionCandidates, Schema.junctionCandidates, hname]
    simp only [hkeys]
  have htable : first.tableName = second.tableName := by
    rw [Path.tableName, Path.tableName, hfirst, hsecond]
    exact hname
  rw [Schema.linkBetween, Schema.linkBetween, hfirst, hsecond, Path.child, Path.child,
    List.getLast?_concat, List.getLast?_concat]
  dsimp only
  rw [Schema.manyToOne?, Schema.manyToOne?, Schema.oneToMany?, Schema.oneToMany?, htable, hname]
  cases (schema.graph.outgoing second.tableName).find? fun key => key.leadsTo step with
  | some key => rfl
  | none =>
      dsimp only [Option.map_none]
      cases (schema.graph.outgoing step.name).find? fun key =>
          key.leadsTo { name := other.name, qualifier := step.qualifier } with
      | some key => rfl
      | none =>
          rw [Option.map_none, Schema.manyToMany?, Schema.manyToMany?, hcandidates, hname]
          cases schema.chosenJunction? other.name step.name with
          | some interim =>
              dsimp only
              rw [hkeys]
              cases schema.junctionKeys? interim other step <;> rfl
          | none => rcases schema.junctionCandidates other step with _ | ⟨candidate, _ | _⟩ <;> rfl

namespace Plan

variable {schema : Schema} {memo after : Memo} {place : Path} {elements : List Element}
  {gathered result : Gathered} {clauses final : ClauseSet}

/-! ## Gathering with plain names -/

/-- A column of plain names is one of the table at its place. -/
theorem column_faithful (hschema : schema.Plain) {address : Address} {column : ResolvedColumn}
    (hplace : Path.Plain address.path) (hname : PlainName address.name)
    (hfaithful : Memo.Faithful schema memo)
    (hrun : Succeeds (schema.column address) memo column after) :
    Memo.Faithful schema after ∧ ∃ table, schema.tableRef? address.path = some table ∧
      column = ⟨table, address.name, address.resultName⟩ := by
  obtain ⟨-, hgrows, hknows⟩ := Schema.column_succeeds hplace hrun
  have hafter := hfaithful.grows hschema hgrows
  obtain ⟨-, htable, hsame, hresult⟩ := hafter.columns address column hplace hname hknows
  refine ⟨hafter, column.table, htable, ?_⟩
  rw [← hsame, ← hresult]

/-- A nested bucket of plain names is joined at its place, unless it is left to a statement of
its own. -/
theorem joinOf?_faithful (hschema : schema.Plain) {step : Step} {join : Option KnownJoin}
    (hplace : Path.Plain place) (hstep : step.Plain) (hfaithful : Memo.Faithful schema memo)
    (hrun : Succeeds (joinOf? schema place (place.child step)) memo join after) :
    Memo.Faithful schema after ∧
      match join with
      | none => ¬ IsJoined schema place (place.child step)
      | some known => JoinedAt schema place (place.child step) known := by
  have hchild : Path.Plain (place.child step) := hplace.child hstep
  cases joinOf?_run hrun with
  | @joined source target _ _ _ _ _ _ _ hlink hcolumn hother htable =>
      obtain ⟨hanswer, hgrows, -⟩ := Schema.link_succeeds hplace hchild hlink
      have hlink := hfaithful.linkAnswer? hplace hchild hanswer
      have hrelates := Schema.linkBetween_ok hlink
      have hpaths : source.path = place ∧ target.path = place.child step := hrelates.paths
      have hnames : PlainName source.name ∧ PlainName target.name := hrelates.plainNames hschema
      obtain ⟨hfirst, owner, howner, rfl⟩ := column_faithful hschema (hpaths.1 ▸ hplace) hnames.1
        (hfaithful.grows hschema hgrows) hcolumn
      obtain ⟨hsecond, joined, hjoined, rfl⟩ :=
        column_faithful hschema (hpaths.2 ▸ hchild) hnames.2 hfirst hother
      obtain ⟨hfound, hmore⟩ := Schema.table_succeeds hchild htable
      rw [hsecond.tableAnswer? hchild] at hfound
      rw [hpaths.1] at howner
      rw [hpaths.2, hfound] at hjoined
      obtain rfl := Option.some.inj hjoined
      exact ⟨hsecond.grows hschema hmore, .intro hlink howner hfound⟩
  | deferred hlink hdeferred =>
      obtain ⟨hanswer, hgrows, -⟩ := Schema.link_succeeds hplace hchild hlink
      have hlink := hfaithful.linkAnswer? hplace hchild hanswer
      exact ⟨hfaithful.grows hschema hgrows, not_isJoined hlink hdeferred⟩

/-- A join equates the columns of the link between its place and the one above. -/
theorem JoinedAt.join_eq {parent : Path} {known : KnownJoin} {source target : Address}
    (hjoin : JoinedAt schema parent place known)
    (hlink : schema.linkBetween parent place = .ok (some (.manyToOne source target))) :
    ∃ owner joined, schema.tableRef? parent = some owner ∧ schema.tableRef? place = some joined ∧
      known.join = ⟨.left, joined, .binary .eq (.ofTable owner.reference source.name)
        (.ofTable joined.reference target.name)⟩ := by
  cases hjoin with
  | intro hother howner hjoined =>
      obtain ⟨rfl, rfl⟩ :=
        Link.manyToOne.inj (Schema.linkBetween_unique hother hlink)
      exact ⟨_, _, howner, hjoined, rfl⟩

/-! ## Gathering without nested buckets -/

/-- Without nested buckets nothing is joined. -/
theorem GatherRun.joins_eq
    (hrun : GatherRun schema place elements gathered clauses memo result final after)
    (hnone : ∀ nested, .bucket nested ∉ elements) : result.joins = gathered.joins := by
  induction hrun with
  | nil => rfl
  | deferred | joined => exact absurd List.mem_cons_self (hnone _)
  | column _ _ ih | row _ _ ih | clause _ _ ih | limit _ ih | offset _ ih | total _ ih
  | beacon _ ih => exact ih fun nested hnested => hnone nested (List.mem_cons_of_mem _ hnested)

/-- Slices change nothing but the page, and ask the schema nothing. -/
theorem GatherRun.of_slices
    (hrun : GatherRun schema place elements gathered clauses memo result final after)
    (hslices : ∀ element ∈ elements, element.isSlice = true) :
    result = { gathered with limit := result.limit, offset := result.offset } ∧
      final = clauses ∧ after = memo := by
  induction hrun with
  | nil => exact ⟨rfl, rfl, rfl⟩
  | limit _ ih | offset _ ih =>
      exact ih fun element helement => hslices element (List.mem_cons_of_mem _ helement)
  | column | row | deferred | joined | clause | total | beacon =>
      cases hslices _ List.mem_cons_self

/-- The clause that asks for keys becomes the membership of its column in them. -/
theorem Predicate.ofExpression_keys {column : String} {keys : List Json}
    {condition : Option Sql.Expr}
    (hrun : Succeeds (Predicate.ofExpression schema place [.clause ⟨column, .set keys⟩]) memo
      condition after) :
    ∃ resolved, Succeeds (schema.column ⟨column, place⟩) memo resolved after ∧
      condition = some (Predicate.member resolved.expression keys false) := by
  rw [Predicate.ofExpression] at hrun
  obtain ⟨results, middle, hresults, hrest⟩ := Succeeds.bind_iff.mp hrun
  cases Predicate.reduce_run hresults with
  | clause hclause hnothing =>
      cases hnothing
      obtain ⟨resolved, hcolumn, hplanned⟩ := Predicate.ofClause_run hclause
      obtain rfl := Except.ok.inj hplanned
      obtain ⟨rfl, rfl⟩ := Succeeds.pure_iff.mp hrest
      exact ⟨resolved, hcolumn, rfl⟩

end Plan

namespace Session

open Plan (GatherRun Gathered JoinedAt KnownJoin)

variable {reader : Reader} {schema : Schema} {child : Bucket}
  {interim keyColumn targetKey targetColumn field : String} {keys : List Json}

/-! ## What is prepared and gathered for a junction -/

/-- Where the target of a junction stands in the query of the junction. -/
def junctionPlace (child : Bucket) (field interim targetKey targetColumn : String) : Path :=
  Path.child [{ name := interim }] (junctionTarget child field targetKey targetColumn).step

/-- The target of a junction is joined by the junction's key. -/
def JoinsByKey (schema : Schema) (child : Bucket)
    (field interim targetKey targetColumn : String) : Prop :=
  schema.linkBetween [{ name := interim }]
      (junctionPlace child field interim targetKey targetColumn) =
    .ok (some (.manyToOne ⟨targetKey, [{ name := interim }]⟩
      ⟨targetColumn, junctionPlace child field interim targetKey targetColumn⟩))

theorem Prepares.eq_of_no_bucket {place : Path} {path requested : List String}
    {findings found : Findings} {elements others : List Element}
    (hnone : ∀ element ∈ elements, element.bucket? = none)
    (hprepares : Prepares schema place path requested findings elements others found) :
    others = elements := by
  induction hprepares with
  | nil => rfl
  | deferred | joined => cases hnone _ List.mem_cons_self
  | other _ _ ih => rw [ih fun element helement => hnone element (List.mem_cons_of_mem _ helement)]

/-- The elements that read a junction, with those of the target prepared. -/
def junctionElements (child : Bucket) (field keyColumn targetKey targetColumn : String)
    (keys : List Json) (inner : List Element) : List Element :=
  [.item (.column keyColumn), keyClause keyColumn keys,
    .bucket { junctionTarget child field targetKey targetColumn with elements := inner }] ++
      (countableElements child).filter ElementOf.isSlice

/-- If nothing is joined to the target, preparing a junction's bucket leaves it just the target
to join. -/
theorem Prepares.of_junctionBucket (hjoins : JoinsByKey schema child field interim targetKey
      targetColumn)
    (hnested : ∀ nested, .bucket nested ∈ child.elements → ¬ Plan.IsJoined schema
      (junctionPlace child field interim targetKey targetColumn)
      ((junctionPlace child field interim targetKey targetColumn).child nested.step))
    {requested : List String} {others : List Element} {found : Findings}
    (hprepares : Prepares schema [{ name := interim }] [] requested {}
      (junctionBucket child field interim keyColumn targetKey targetColumn keys).elements
      others found) :
    ∃ inner, (∀ nested, .bucket nested ∉ inner) ∧
      others = junctionElements child field keyColumn targetKey targetColumn keys inner := by
  rw [junctionBucket_elements] at hprepares
  obtain ⟨behindKey, rfl, hbehindKey⟩ := hprepares.of_other rfl
  obtain ⟨behindClause, rfl, hbehindClause⟩ := hbehindKey.of_other rfl
  rw [JoinsByKey] at hjoins
  cases hbehindClause with
  | other hother => cases hother
  | deferred hlink hdeferred =>
      obtain rfl := Schema.linkBetween_unique hjoins hlink
      cases hdeferred
  | @joined _ _ _ _ _ _ _ _ inner _ others hlink hjoined hinner hrest =>
      refine ⟨inner, fun prepared hprepared => ?_, ?_⟩
      · obtain ⟨nested, link, _, _, _, hmem, hnestedLink, hnestedJoined, -⟩ :=
          hinner.joined_of_mem_others hprepared
        rw [← mem_filterMap_bucket?, junctionTarget_buckets, mem_filterMap_bucket?] at hmem
        exact hnested nested hmem ⟨link, hnestedLink, hnestedJoined⟩
      · have hslices : ∀ element ∈ (countableElements child).filter ElementOf.isSlice,
            element.bucket? = none := by
          intro element helement
          cases element with
          | bucket nested => cases (List.mem_filter.mp helement).2
          | _ => rfl
        rw [hrest.eq_of_no_bucket hslices]
        rfl

/-- What is gathered from the elements of a junction: its key first, the one join of its target,
no beacon, and of its own clauses only the one that asks for the keys. -/
structure GathersJunction (schema : Schema) (child : Bucket)
    (field interim keyColumn targetKey targetColumn : String) (keys : List Json)
    (gathered : Gathered) (clauses : Plan.ClauseSet) : Prop where
  columns : ∃ table others, schema.tableRef? [{ name := interim }] = some table ∧
    gathered.columns = ⟨.ofTable table.reference keyColumn, some keyColumn⟩ :: others
  joins : ∃ known, gathered.joins = [known] ∧ JoinedAt schema [{ name := interim }]
    (junctionPlace child field interim targetKey targetColumn) known
  beacons : gathered.beacons = []
  clauses : clauses = { filter := [.clause ⟨keyColumn, .set keys⟩] }

/-- The elements of a junction are gathered to one join if nothing is joined to its target. -/
theorem GathersJunction.of_run (hschema : schema.Plain)
    (hinterim : PlainName interim) (hkey : PlainName keyColumn)
    (hstep : (junctionTarget child field targetKey targetColumn).step.Plain)
    (hjoins : JoinsByKey schema child field interim targetKey targetColumn)
    {inner : List Element} (hinner : ∀ nested, .bucket nested ∉ inner)
    {gathered : Gathered} {clauses : Plan.ClauseSet} {memo after : Memo}
    (hfaithful : Memo.Faithful schema memo)
    (hrun : GatherRun schema [{ name := interim }]
      (junctionElements child field keyColumn targetKey targetColumn keys inner) {} {} memo
      gathered clauses after) :
    GathersJunction schema child field interim keyColumn targetKey targetColumn keys gathered
      clauses := by
  have hplace : Path.Plain [{ name := interim }] := by
    refine ⟨List.cons_ne_nil _ _, List.forall_mem_singleton.mpr ?_⟩
    exact ⟨hinterim, nofun, nofun⟩
  have hlinked : Plan.IsJoined schema [{ name := interim }]
      (junctionPlace child field interim targetKey targetColumn) := ⟨_, hjoins, rfl⟩
  rw [junctionElements] at hrun
  cases hrun with
  | @column _ _ _ _ _ _ _ _ second _ resolved hcolumn hrun =>
      obtain ⟨hsecond, table, htable, rfl⟩ :=
        Plan.column_faithful hschema hplace hkey hfaithful hcolumn
      cases hrun with
      | clause hpush hrun =>
          obtain rfl := Except.ok.inj hpush
          cases hrun with
          | deferred hjoin =>
              obtain ⟨-, hnone⟩ := Plan.joinOf?_faithful hschema hplace hstep hsecond hjoin
              exact absurd hlinked hnone
          | @joined _ _ _ _ below _ _ _ _ _ _ _ _ _ _ known hjoin hnested hclauses hrun =>
              obtain ⟨-, hknown⟩ := Plan.joinOf?_faithful hschema hplace hstep hsecond hjoin
              obtain ⟨condition, order, _, -, -, rfl⟩ := Plan.gatherClauses_run hclauses
              obtain ⟨hresult, rfl, rfl⟩ :=
                hrun.of_slices fun element helement => (List.mem_filter.mp helement).2
              have hnone : below.joins = [] := hnested.joins_eq hinner
              rw [hresult, Gathered.absorb_eq, Gathered.addJoin_eq, hnone]
              exact ⟨⟨table, below.columns, htable, rfl⟩, ⟨known, rfl, hknown⟩, rfl, rfl⟩

/-! ## The query -/

/-- A query of a junction: the junction's key comes first, the table of the target is joined by
the junction's other key and nothing else is, and only rows of the given keys count. -/
structure QueriesJunction (junction target : Sql.TableRef)
    (keyColumn targetKey targetColumn : String) (keys : List Json) (query : Sql.Query) :
    Prop where
  table : query.table = some junction
  key : query.items.head? = some ⟨.ofTable junction.reference keyColumn, some keyColumn⟩
  joins : query.joins = [⟨.left, target, .binary .eq (.ofTable junction.reference targetKey)
    (.ofTable target.reference targetColumn)⟩]
  condition : ∃ others, query.condition = Sql.Expr.conjunction?
    (others ++ [.member (.ofTable junction.reference keyColumn) (keys.map .ofJson) false])

/-- The table of a junction stands under its own name, that of its target under another one. -/
structure JunctionTables (interim target : String) (junctionRef targetRef : Sql.TableRef) :
    Prop where
  junction : junctionRef.table = interim
  target : targetRef.table = target
  unaliased : junctionRef.aliasName = none
  apart : targetRef.reference ≠ junctionRef.reference

theorem JunctionTables.of_tableRef? {junction target : Sql.TableRef}
    (hinterim : PlainName interim)
    (hjunction : schema.tableRef? [{ name := interim }] = some junction)
    (htarget : schema.tableRef? (junctionPlace child field interim targetKey targetColumn) =
      some target) : JunctionTables interim child.name junction target where
  junction := tableRef?_table hjunction
  target := by
    rw [tableRef?_table htarget, junctionPlace, Path.child, Path.tableName, List.getLast?_concat]
    rfl
  unaliased := by
    obtain ⟨definition, -, hbare⟩ := Option.bind_eq_some_iff.mp hjunction
    rw [← Option.some.inj hbare]
    rfl
  apart := by
    have hdeep : 1 < (junctionPlace child field interim targetKey targetColumn).length :=
      Nat.lt_add_one 1
    rw [Catalog.Schema.tableRef?_reference hjunction, Catalog.Schema.tableRef?_reference htarget]
    intro hsame
    apply hinterim.separable.no_separator
    have hname : Path.reference [{ name := interim }] = interim := rfl
    have haliased : (junctionPlace child field interim targetKey targetColumn).isAliased =
        true := by
      rw [junctionPlace, Path.child, Path.isAliased, List.getLast?_concat]
      exact Bool.or_true _
    rw [← hname, ← hsame, Path.reference, if_pos haliased]
    exact Path.separator_infix_outputName hdeep

/-- The elements of a junction are planned as a query that joins its target only, if nothing is
joined to the target. -/
theorem build_junctionElements (hschema : reader.schema.Plain) (hinterim : PlainName interim)
    (hkey : PlainName keyColumn)
    (hjoins : JoinsByKey reader.schema child field interim targetKey targetColumn)
    {inner : List Element} (hinner : ∀ nested, .bucket nested ∉ inner)
    (hplain : PlainElements
      (junctionElements child field keyColumn targetKey targetColumn keys inner))
    {memo after : Memo} (hfaithful : Memo.Faithful reader.schema memo)
    {statement : Sql.Statement}
    (hbuild : Succeeds (reader.planner.build ⟨interim, none, none,
      junctionElements child field keyColumn targetKey targetColumn keys inner⟩) memo statement
        after) :
    ∃ query junctionRef targetRef, statement = .select query ∧
      JunctionTables interim child.name junctionRef targetRef ∧
      QueriesJunction junctionRef targetRef keyColumn targetKey targetColumn keys query := by
  have hplace : Path.Plain [{ name := interim }] :=
    ⟨List.cons_ne_nil _ _, List.forall_mem_singleton.mpr ⟨hinterim, nofun, nofun⟩⟩
  have hclosed := hfaithful.closed hschema
  obtain ⟨-, columns, hcolumns, hkind, -⟩ :=
    Plan.Planner.build_succeeds hclosed hplace hplain.descendAll hbuild
  have hselect : statement.kind = .select :=
    hkind.mpr (.inl (hcolumns.ne_nil_iff.mpr (.own List.mem_cons_self)))
  obtain ⟨gathered, last, hgather, hplans⟩ := Plan.Planner.build_plans hbuild
  cases hplans with
  | insert | update | delete => cases hselect
  | @select parts hasks hrows hparts =>
      rw [Plan.gather] at hgather
      obtain ⟨⟨elements, clauses⟩, middle, helements, hclauses⟩ := Succeeds.bind_iff.mp hgather
      have hgathered := Plan.gatherElements_run helements
      have hmiddle := hfaithful.grows hschema
        (hgathered.collects hclosed hplace hplain.descendAll).grows
      have hlast := hmiddle.grows hschema (Plan.gatherClauses_succeeds hplace hclauses).1
      have hmem : .bucket { junctionTarget child field targetKey targetColumn with
          elements := inner } ∈
            junctionElements child field keyColumn targetKey targetColumn keys inner := by
        simp [junctionElements]
      have htarget : (junctionTarget child field targetKey targetColumn).step.Plain :=
        (hplain.children _ hmem _ .self).1
      obtain ⟨⟨junction, others, hjunction, hfirst⟩, ⟨known, hjoin, hknown⟩, hbeacons, rfl⟩ :=
        GathersJunction.of_run hschema hinterim hkey htarget hjoins hinner hfaithful hgathered
      obtain ⟨condition, order, next, hcondition, -, rfl⟩ := Plan.gatherClauses_run hclauses
      obtain ⟨resolved, hresolved, rfl⟩ := Plan.Predicate.ofExpression_keys hcondition
      obtain ⟨-, owner, howner, rfl⟩ := Plan.column_faithful hschema hplace hkey hmiddle hresolved
      obtain ⟨table, htable, rfl⟩ := Plan.Planner.parts_eq (.inr (by exact hbeacons)) hparts
      obtain ⟨hanswer, -⟩ := Schema.table_succeeds hplace (Succeeds.adapt_iff.mp htable)
      replace hanswer : reader.schema.tableRef? [{ name := interim }] = some table :=
        (hlast.tableAnswer? hplace).symm.trans hanswer
      obtain ⟨parent, joined, hparent, hjoined, hknown⟩ := hknown.join_eq hjoins
      -- there is one table at the place of the junction
      obtain rfl := Option.some.inj (hanswer.symm.trans hjunction)
      obtain rfl := Option.some.inj (hanswer.symm.trans howner)
      obtain rfl := Option.some.inj (hanswer.symm.trans hparent)
      refine ⟨_, table, joined, rfl, .of_tableRef? hinterim hanswer hjoined, rfl, ?_, ?_, ?_⟩
      · dsimp only [Plan.SelectParts.query]
        rw [hfirst]
        rfl
      · dsimp only [Plan.SelectParts.query]
        rw [hjoin, ← hknown]
        rfl
      · exact ⟨elements.conditions, rfl⟩

/-- Nothing is joined to the target of a junction that is not joined to the child. -/
theorem isJoined_junctionPlace {place : Path} {step : Step}
    (hjoined : Plan.IsJoined schema (junctionPlace child field interim targetKey targetColumn)
      ((junctionPlace child field interim targetKey targetColumn).child step)) :
    Plan.IsJoined schema (place.child child.step) ((place.child child.step).child step) := by
  obtain ⟨link, hlink, hkind⟩ := hjoined
  have hhere : (junctionPlace child field interim targetKey targetColumn).getLast? =
      some (junctionTarget child field targetKey targetColumn).step := List.getLast?_concat
  have hthere : (place.child child.step).getLast? = some child.step := List.getLast?_concat
  have hsame := schema.linkBetween_isDeferred hhere hthere rfl step
  rw [hlink] at hsame
  obtain ⟨found, hfound, hmap⟩ := map_ok_iff.mp hsame.symm
  obtain ⟨other, rfl, hother⟩ := Option.map_eq_some_iff.mp hmap
  exact ⟨other, hfound, hother.trans hkind⟩

/-- The statement that is planned for the bucket of a junction joins the target by the key of
the link. -/
theorem build_junction (hschema : reader.schema.Plain) (hchild : child.Plain) {place : Path}
    {source interimSource interimTarget target : Address}
    (hlink : reader.schema.linkBetween place (place.child child.step) =
      .ok (some (.manyToMany source interimSource interimTarget target)))
    (hnested : ∀ nested, .bucket nested ∈ child.elements → ¬ Plan.IsJoined reader.schema
      (place.child child.step) ((place.child child.step).child nested.step))
    {memo first second : Memo} (hfaithful : Memo.Faithful reader.schema memo) {bucket : Bucket}
    (hbucket : bucket = junctionBucket child child.outputName interimSource.path.tableName
      interimSource.name interimTarget.name target.name keys)
    {prepared : Bucket} {found : Findings} {statement : Sql.Statement}
    (hprepare : Succeeds (prepare reader.schema bucket.rootPath [] {} bucket) memo
      (prepared, found) first)
    (hbuild : Succeeds (reader.planner.build prepared) first statement second) :
    ∃ query junctionRef targetRef, statement = .select query ∧
      JunctionTables interimSource.path.tableName child.name junctionRef targetRef ∧
      QueriesJunction junctionRef targetRef interimSource.name interimTarget.name target.name
        keys query := by
  have hjunction := throughJunction_of_link hschema hlink
  have hplain : bucket.Plain := hbucket ▸ hjunction.plain hchild keys
  have hroot : bucket.rootPath = [{ name := interimSource.path.tableName }] := hbucket ▸ rfl
  obtain ⟨hgrows, hprepared, hprepares⟩ := prepare_succeeds hschema hfaithful hplain.rootPath
    (PlainElements.of_bucket hplain).descendAll hprepare
  have hothers := hprepares.plainElements hschema (.of_bucket hplain)
  rw [hroot, hbucket] at hprepares
  obtain ⟨inner, hinner, helements⟩ := hprepares.of_junctionBucket (hjunction.joined _)
    fun nested hmem hjoined => hnested nested hmem (isJoined_junctionPlace hjoined)
  rw [helements] at hothers
  rw [hprepared, helements, hbucket] at hbuild
  exact build_junctionElements hschema hjunction.table hjunction.sourceKey (hjunction.joined _)
    hinner hothers (hfaithful.grows hschema hgrows) hbuild

/-! ## The first call -/

/-- A query is planned for a bucket, which is prepared first. -/
def Plans (reader : Reader) (bucket : Bucket) (memo : Memo) (query : Sql.Query) : Prop :=
  ∃ prepared found first second,
    Succeeds (prepare reader.schema bucket.rootPath [] {} bucket) memo (prepared, found) first ∧
      Succeeds (reader.planner.build prepared) first (.select query) second

/-- Rows for which no query is planned are not read. -/
theorem fetchRows_fails {name : String} {prepared : Bucket} {start : State}
    (hnone : ∀ query after, ¬ Succeeds (reader.planner.build prepared) start.memo (.select query)
      after) : ∃ failure finish, Makes (reader.fetchRows name prepared) start (.error failure) []
        finish := by
  obtain ⟨outcome, after, hbuild⟩ : ∃ outcome after,
    Id.run ((reader.planner.build prepared).run.run start.memo) = (outcome, after) := ⟨_, _, rfl⟩
  rw [Reader.fetchRows]
  cases outcome with
  | error failure => exact ⟨failure, _, (Makes.planning hbuild).bind_error⟩
  | ok statement =>
      cases statement with
      | select query => exact absurd hbuild (hnone query after)
      | insert | update | delete =>
          exact ⟨_, _, (Makes.planning hbuild).bind (.throw _ _)⟩

/-- Run from a state, reading a bucket calls nothing before the query that is planned for the
bucket, and if there is none it fails. -/
def Reader.SendsPlanned {α : Type} (reader : Reader) (bucket : Bucket) (step : Run α)
    (start : State) : Prop :=
  ∃ outcome calls finish, Makes step start outcome calls finish ∧
    (calls = [] → (∃ failure, outcome = .error failure) ∧
      ∀ query, ¬ Plans reader bucket start.memo query) ∧
    ∀ call ∈ calls.head?, ∃ query, call = .execute (.select query) ∧
      Plans reader bucket start.memo query

namespace Reader.SendsPlanned

variable {α β : Type} {bucket : Bucket} {step first : Run α} {start finish : State}

theorem of_none {failure : Failure} (hmakes : Makes step start (.error failure) [] finish)
    (hnone : ∀ query, ¬ Plans reader bucket start.memo query) :
    reader.SendsPlanned bucket step start :=
  ⟨.error failure, [], finish, hmakes, fun _ => ⟨⟨failure, rfl⟩, hnone⟩, nofun⟩

/-- What follows makes no earlier call. -/
theorem bind {next : α → Run β} (hfirst : reader.SendsPlanned bucket first start)
    (hnext : ∀ value, OnlyCalls (fun _ => True) (next value)) :
    reader.SendsPlanned bucket (first >>= next) start := by
  obtain ⟨outcome, calls, middle, hmakes, hsilent, hcall⟩ := hfirst
  cases calls with
  | nil =>
      obtain ⟨⟨failure, rfl⟩, hnone⟩ := hsilent rfl
      exact of_none hmakes.bind_error hnone
  | cons call rest =>
      obtain ⟨result, later, finish, hboth⟩ := hmakes.exists_bind hnext
      exact ⟨result, call :: rest ++ later, finish, hboth, nofun, hcall⟩

end Reader.SendsPlanned

/-- A fetch sends the query that is planned for its bucket. -/
theorem fetch_sendsPlanned (depth : Nat) (bucket : Bucket) (start : State) :
    reader.SendsPlanned bucket (reader.fetch (depth + 1) bucket) start := by
  obtain ⟨outcome, first, hprepare⟩ : ∃ outcome first,
    Id.run ((prepare reader.schema bucket.rootPath [] {} bucket).run.run start.memo) =
      (outcome, first) := ⟨_, _, rfl⟩
  cases outcome with
  | error failure =>
      rw [Reader.fetch]
      refine .of_none (Makes.planning hprepare).bind_error ?_
      rintro query ⟨_, _, _, _, hother, -⟩
      cases hprepare.symm.trans hother
  | ok value =>
      obtain ⟨prepared, found⟩ := value
      by_cases hplanned : ∃ query second,
        Succeeds (reader.planner.build prepared) first (.select query) second
      · obtain ⟨query, second, hbuild⟩ := hplanned
        obtain ⟨result, later, finish, hmakes⟩ :=
          @fetch_makes_planned found reader bucket prepared query depth start first second
            hprepare hbuild
        refine ⟨result, _, finish, hmakes, fun hcalls => absurd hcalls (List.cons_ne_nil _ _),
          fun call hcall => ?_⟩
        obtain rfl := Option.some.inj hcall
        exact ⟨query, rfl, prepared, found, first, second, hprepare, hbuild⟩
      · have hnone : ∀ query second, ¬ Succeeds (reader.planner.build prepared)
            ({ start with memo := first } : State).memo (.select query) second :=
          fun query second hbuild => hplanned ⟨query, second, hbuild⟩
        obtain ⟨failure, finish, hrows⟩ := fetchRows_fails hnone
        rw [Reader.fetch]
        refine .of_none ((Makes.planning hprepare).bind hrows.bind_error) ?_
        rintro query ⟨_, _, _, second, hother, hbuild⟩
        cases hprepare.symm.trans hother
        exact hnone query second hbuild

/-- Many-to-many children of parents that have keys are read by the bucket of their junction. -/
theorem fetchChildren_eq_junction {read : Bucket → Run Fetched} {records : List Record}
    {deferred : Deferred} {source interimSource interimTarget target : Address}
    (hkind : deferred.link = .manyToMany source interimSource interimTarget target)
    (hkeys : parentKeys records deferred.path deferred.link.source.name = keys)
    (hsome : keys ≠ []) :
    Reader.fetchChildren read records deferred = (do
      let fetched ← read (junctionBucket deferred.child deferred.field
        interimSource.path.tableName interimSource.name interimTarget.name target.name keys)
      return childrenOfJunction (deferred.child.columns.contains target.name) deferred.field
        interimSource.name target.name fetched.records) := by
  rw [Reader.fetchChildren, hkeys, hkind]
  exact if_neg (by rwa [List.isEmpty_iff])

/-- Many-to-many children are found again from their junction by the key of the link, whatever
keys the junction has.  The first statement that reads them is the one that is planned, and
queries the junction: it joins the target by that key and nothing else, and asks for the rows of
the parents' keys.  The children of a key are the targets of the rows that have it. -/
theorem fetchChildren_queries_junction (hschema : reader.schema.Plain) {place : Path}
    {deferred : Deferred} (hchild : deferred.child.Plain)
    (hfield : deferred.field = deferred.child.outputName)
    {source interimSource interimTarget target : Address}
    (hlink : reader.schema.linkBetween place (place.child deferred.child.step) =
      .ok (some deferred.link))
    (hkind : deferred.link = .manyToMany source interimSource interimTarget target)
    (hnested : ∀ nested, .bucket nested ∈ deferred.child.elements →
      ¬ Plan.IsJoined reader.schema (place.child deferred.child.step)
        ((place.child deferred.child.step).child nested.step))
    {start : State} (hfaithful : Memo.Faithful reader.schema start.memo) (depth : Nat)
    {records : List Record}
    (hkeys : parentKeys records deferred.path deferred.link.source.name = keys)
    {bucket : Bucket} (hbucket : bucket = junctionBucket deferred.child deferred.field
      interimSource.path.tableName interimSource.name interimTarget.name target.name keys) :
    JoinsByKey reader.schema deferred.child deferred.field interimSource.path.tableName
      interimTarget.name target.name ∧
    ∃ outcome calls finish,
      Makes (Reader.fetchChildren (reader.fetch (depth + 1)) records deferred) start outcome calls
        finish ∧
      (calls = [] → keys = [] ∨ ∀ query, ¬ Plans reader bucket start.memo query) ∧
      (∀ call ∈ calls.head?, ∃ query junctionRef targetRef, call = .execute (.select query) ∧
        JunctionTables interimSource.path.tableName deferred.child.name junctionRef targetRef ∧
        QueriesJunction junctionRef targetRef interimSource.name interimTarget.name target.name
          keys query) ∧
      ∀ children, outcome = .ok children → keys ≠ [] → ∃ fetched,
        Succeeds (reader.fetch (depth + 1) bucket) start fetched finish ∧
        ∀ text, children.of text =
          (fetched.records.filter (hasKey interimSource.name text)).filterMap
            (targetOf? (deferred.child.columns.contains target.name) deferred.field
              target.name) := by
  have hjunction := throughJunction_of_link hschema (hkind ▸ hlink)
  refine ⟨hjunction.joined deferred.field, ?_⟩
  by_cases hnone : keys = []
  · have hpure : Reader.fetchChildren (reader.fetch (depth + 1)) records deferred = pure [] := by
      rw [Reader.fetchChildren, hkeys, hnone]
      rfl
    refine ⟨.ok [], [], start, hpure ▸ .pure [] start, fun _ => .inl hnone, ?_, ?_⟩
    · exact fun _ hcall => absurd hcall (Option.not_mem_none _)
    · exact fun _ _ hsome => absurd hnone hsome
  · obtain ⟨outcome, calls, finish, hmakes, hsilent, hcall⟩ :=
      (fetch_sendsPlanned depth bucket start).bind fun fetched =>
        OnlyCalls.pure (childrenOfJunction (deferred.child.columns.contains target.name)
          deferred.field interimSource.name target.name fetched.records)
    subst hbucket
    rw [← fetchChildren_eq_junction hkind hkeys hnone] at hmakes
    refine ⟨outcome, calls, finish, hmakes, fun hcalls => .inr (hsilent hcalls).2, ?_, ?_⟩
    · intro call hhead
      obtain ⟨query, rfl, prepared, found, first, second, hprepare, hbuild⟩ := hcall call hhead
      rw [hfield] at hprepare
      obtain ⟨_, junctionRef, targetRef, hselect, htables, hquery⟩ :=
        build_junction hschema hchild (hkind ▸ hlink) hnested hfaithful rfl hprepare hbuild
      obtain rfl := Sql.Statement.select.inj hselect
      exact ⟨_, junctionRef, targetRef, rfl, htables, hquery⟩
    · rintro children rfl -
      obtain ⟨fetched, hfetched, rfl⟩ :=
        fetchChildren_manyToMany hkind (hkeys ▸ hnone) hmakes.run
      rw [hkeys] at hfetched
      exact ⟨fetched, hfetched, fun text => of_childrenOfJunction _ _ _ _ text _⟩

/-- Books and persons.  A credit names the author of a book, and an editor. -/
def creditedBooks : Schema where
  tables := [{ name := "book", columns := ["id", "title"] },
    { name := "person", columns := ["id", "name"] },
    { name := "credit", columns := ["book_id", "author", "editor_id"] }]
  graph := {
    tables := ["book", "person", "credit"]
    foreignKeys := [⟨"credit", "book_id", "book", "id"⟩, ⟨"credit", "author", "person", "id"⟩,
      ⟨"credit", "editor_id", "person", "id"⟩] }
  junctions := []

/-- A reader of these books. -/
def creditReader : Reader where
  schema := creditedBooks
  connection := .ofNames fun _ => []

/-- The persons that are credited first, by name. -/
def firstCredited : Deferred where
  path := []
  field := "person"
  link := .manyToMany ⟨"id", [{ name := "book" }]⟩ ⟨"book_id", [{ name := "credit" }]⟩
    ⟨"author", [{ name := "credit" }]⟩ ⟨"id", [{ name := "book" }, { name := "person" }]⟩
  child := { name := "person", elements := [.item (.column "name")] }

theorem fetchChildren_queries_junction_firstCredited :
    ∃ outcome query later finish, Makes
      (Reader.fetchChildren (creditReader.fetch 1) [[("id", .int 1)]] firstCredited) {} outcome
        (.execute (.select query) :: later) finish ∧
      ∃ junctionRef targetRef, JunctionTables "credit" "person" junctionRef targetRef ∧
        QueriesJunction junctionRef targetRef "book_id" "author" "id" [.int 1] query := by
  have hplans : ∃ query, Plans creditReader
      (junctionBucket firstCredited.child "person" "credit" "book_id" "author" "id" [.int 1]) {}
        query := ⟨_, _, _, _, _, rfl, rfl⟩
  obtain ⟨query, hplans⟩ := hplans
  have hschema : creditReader.schema.Plain := by decide
  have hchild : firstCredited.child.Plain := by decide
  have hlink : creditReader.schema.linkBetween [{ name := "book" }]
      (Path.child [{ name := "book" }] firstCredited.child.step) =
        .ok (some firstCredited.link) := rfl
  have hnested : ∀ nested, .bucket nested ∈ firstCredited.child.elements →
      ¬ Plan.IsJoined creditReader.schema (Path.child [{ name := "book" }] firstCredited.child.step)
        (Path.child (Path.child [{ name := "book" }] firstCredited.child.step) nested.step) := by
    simp [firstCredited]
  have hfaithful : Memo.Faithful creditReader.schema (State.memo {}) := .empty creditedBooks
  have hkeys : parentKeys [[("id", .int 1)]] firstCredited.path firstCredited.link.source.name =
      [.int 1] := rfl
  obtain ⟨-, outcome, calls, finish, hmakes, hsilent, hcall, -⟩ :=
    fetchChildren_queries_junction hschema hchild rfl hlink rfl hnested hfaithful 0 hkeys rfl
  cases calls with
  | nil =>
      rcases hsilent rfl with hnone | hnone
      · cases hnone
      · exact absurd hplans (hnone query)
  | cons call later =>
      obtain ⟨query, junctionRef, targetRef, rfl, htables, hquery⟩ := hcall call rfl
      exact ⟨outcome, query, later, finish, hmakes, junctionRef, targetRef, htables, hquery⟩

end Session

end TreeQuery
