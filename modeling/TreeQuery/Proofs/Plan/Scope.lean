import TreeQuery.Proofs.Plan.Joins
import TreeQuery.Proofs.Plan.References

/-!
# Every column is in scope

Columns, conditions and sort keys are gathered at the place of their bucket, and all places
are joined below the root.  What refers to a place therefore refers to a table of the
statement, and since a join is left out only where its place is joined already, nothing is
left out that something else refers to.
-/

namespace TreeQuery.Plan

open Catalog (Memo Schema)

variable {schema : Schema} {memo after : Memo} {place root deep : Path}
  {places middle below : List Path} {elements rest : List Element}
  {gathered result nested : Gathered} {clauses final : ClauseSet}

/-! ## Places below a place -/

/-- A place is joined below another by the buckets among elements there: by one of them, or
below it. -/
inductive JoinedBelow (schema : Schema) : Path → List Element → Path → Prop
  | own {place : Path} {elements : List Element} {child : Bucket}
      (hchild : .bucket child ∈ elements)
      (hjoined : IsJoined schema place (place.child child.step)) :
      JoinedBelow schema place elements (place.child child.step)
  | deeper {place deep : Path} {elements : List Element} {child : Bucket}
      (hchild : .bucket child ∈ elements)
      (hjoined : IsJoined schema place (place.child child.step))
      (hdeep : JoinedBelow schema (place.child child.step) child.elements deep) :
      JoinedBelow schema place elements deep

theorem not_joinedBelow_nil : ¬ JoinedBelow schema place [] deep := by
  rintro (⟨hchild, -⟩ | ⟨hchild, -, -⟩) <;> cases hchild

theorem JoinedBelow.cons {element : Element} (hbelow : JoinedBelow schema place rest deep) :
    JoinedBelow schema place (element :: rest) deep := by
  cases hbelow with
  | own hchild hjoined => exact .own (List.mem_cons_of_mem _ hchild) hjoined
  | deeper hchild hjoined hdeep => exact .deeper (List.mem_cons_of_mem _ hchild) hjoined hdeep

/-- A joined bucket joins its place, and what is joined below it. -/
theorem joinedBelow_cons_of_joined {child : Bucket}
    (hjoined : IsJoined schema place (place.child child.step)) :
    JoinedBelow schema place (.bucket child :: rest) deep ↔
      (deep = place.child child.step ∨
        JoinedBelow schema (place.child child.step) child.elements deep) ∨
      JoinedBelow schema place rest deep := by
  constructor
  · intro hbelow
    cases hbelow with
    | own hchild hother =>
        rcases List.mem_cons.mp hchild with hsame | hchild
        · obtain rfl := ElementOf.bucket.inj hsame
          exact .inl (.inl rfl)
        · exact .inr (.own hchild hother)
    | deeper hchild hother hdeep =>
        rcases List.mem_cons.mp hchild with hsame | hchild
        · obtain rfl := ElementOf.bucket.inj hsame
          exact .inl (.inr hdeep)
        · exact .inr (.deeper hchild hother hdeep)
  · rintro ((rfl | hdeep) | hrest)
    · exact .own List.mem_cons_self hjoined
    · exact .deeper List.mem_cons_self hjoined hdeep
    · exact hrest.cons

/-- An element that is not joined joins nothing. -/
theorem joinedBelow_cons_of_not_joined {element : Element}
    (helement : ∀ child, element = .bucket child →
      ¬ IsJoined schema place (place.child child.step)) :
    JoinedBelow schema place (element :: rest) deep ↔ JoinedBelow schema place rest deep := by
  refine ⟨fun hbelow => ?_, JoinedBelow.cons⟩
  cases hbelow with
  | own hchild hjoined =>
      rcases List.mem_cons.mp hchild with hsame | hchild
      · exact absurd hjoined (helement _ hsame.symm)
      · exact .own hchild hjoined
  | deeper hchild hjoined hdeep =>
      rcases List.mem_cons.mp hchild with hsame | hchild
      · exact absurd hjoined (helement _ hsame.symm)
      · exact .deeper hchild hjoined hdeep

/-! ## What is gathered -/

namespace Gathered

variable {names others : String → Prop}

/-- The columns, conditions and sort keys that were gathered refer to the given names. -/
structure RefersTo (names : String → Prop) (gathered : Gathered) : Prop where
  columns : ∀ item ∈ gathered.columns, item.expression.RefersTo names
  conditions : ∀ condition ∈ gathered.conditions, condition.RefersTo names
  order : ∀ key ∈ gathered.order, key.expression.RefersTo names

theorem refersTo_empty : RefersTo names {} where
  columns _ hnone := absurd hnone List.not_mem_nil
  conditions _ hnone := absurd hnone List.not_mem_nil
  order _ hnone := absurd hnone List.not_mem_nil

theorem RefersTo.mono (hnames : ∀ name, names name → others name)
    (hrefers : gathered.RefersTo names) : gathered.RefersTo others where
  columns item hitem := (hrefers.columns item hitem).mono hnames
  conditions condition hcondition := (hrefers.conditions condition hcondition).mono hnames
  order key hkey := (hrefers.order key hkey).mono hnames

theorem RefersTo.column (hrefers : gathered.RefersTo names) {item : Sql.SelectItem}
    (hitem : item.expression.RefersTo names) :
    RefersTo names { gathered with columns := gathered.columns ++ [item] } where
  columns := List.forall_mem_append.mpr ⟨hrefers.columns, List.forall_mem_singleton.mpr hitem⟩
  conditions := hrefers.conditions
  order := hrefers.order

theorem RefersTo.absorb (hrefers : gathered.RefersTo names) (hnested : nested.RefersTo names)
    (known : KnownJoin) : ((gathered.addJoin known).absorb nested).RefersTo names := by
  rw [absorb_eq, addJoin_eq]
  constructor
  · exact List.forall_mem_append.mpr ⟨hrefers.columns, hnested.columns⟩
  · exact List.forall_mem_append.mpr ⟨hrefers.conditions, hnested.conditions⟩
  · exact List.forall_mem_append.mpr ⟨hrefers.order, hnested.order⟩

end Gathered

/-- What is gathered at a root refers to the root and to joined places. -/
structure Scoped (schema : Schema) (root : Path) (places : List Path) (gathered : Gathered) :
    Prop where
  joins : Chained schema root gathered.joins places
  refers : gathered.RefersTo (Visible schema (root :: places))

namespace Scoped

theorem empty : Scoped schema root [] {} :=
  ⟨.nil, Gathered.refersTo_empty⟩

theorem visible_root (name : String) (hvisible : Visible schema [root] name) :
    Visible schema (root :: places) name :=
  Visible.mono (List.forall_mem_singleton.mpr List.mem_cons_self) name hvisible

/-- A joined bucket is in scope, with all that was gathered below it. -/
theorem joined (hkeys : schema.LegibleKeys) (hscoped : Scoped schema root places gathered)
    {known : KnownJoin} (hjoin : JoinedAt schema root place known) (hlegible : place.Legible)
    (hbelow : Scoped schema place below nested) :
    ∃ later, Scoped schema root later ((gathered.addJoin known).absorb nested) ∧
      ∀ other, other ∈ later ↔ other ∈ places ∨ other = place ∨ other ∈ below := by
  obtain ⟨later, hlater, hmember⟩ := hscoped.joins.absorb hkeys hjoin hlegible hbelow.joins
  have hbefore : ∀ other ∈ root :: places, other ∈ root :: later := by
    intro other hother
    rcases List.mem_cons.mp hother with rfl | hother
    · exact List.mem_cons_self
    · exact List.mem_cons_of_mem _ ((hmember other).mpr (.inl hother))
  have hinside : ∀ other ∈ place :: below, other ∈ root :: later := fun other hother =>
    List.mem_cons_of_mem _ ((hmember other).mpr (.inr (List.mem_cons.mp hother)))
  have hgathered := hscoped.refers.mono (Visible.mono hbefore)
  have hnested := hbelow.refers.mono (Visible.mono hinside)
  exact ⟨later, ⟨hlater, hgathered.absorb hnested known⟩, hmember⟩

end Scoped

/-- The clauses of a bucket are in scope. -/
theorem gatherClauses_scoped (hplace : place.Keyed) (hclauses : clauses.Named KeyName)
    (hexact : Memo.Exact schema memo) (hscoped : Scoped schema place places gathered)
    (hrun : Succeeds (gatherClauses schema place gathered clauses) memo result after) :
    Memo.Exact schema after ∧ Scoped schema place places result := by
  obtain ⟨condition, order, middle, hcondition, horder, rfl⟩ := gatherClauses_run hrun
  obtain ⟨hrefers, hmiddle⟩ :=
    Predicate.ofExpression_refersTo hplace hclauses.filter hexact hcondition
  obtain ⟨hkeys, hafter⟩ := SortKeys.ofExpression_refersTo hplace hclauses.order hmiddle horder
  refine ⟨hafter, hscoped.joins, hscoped.refers.columns, ?_, ?_⟩
  · refine List.forall_mem_append.mpr ⟨hscoped.refers.conditions, fun found hfound => ?_⟩
    exact (hrefers found (Option.mem_toList.mp hfound)).mono Scoped.visible_root
  · exact List.forall_mem_append.mpr
      ⟨hscoped.refers.order, fun key hkey => (hkeys key hkey).mono Scoped.visible_root⟩

/-- Going through elements at a place keeps what is gathered in scope, and joins what is to be
joined below it. -/
def StaysScoped (schema : Schema) (place : Path) (places : List Path) (elements : List Element)
    (result : Gathered) : Prop :=
  ∃ later, Scoped schema place later result ∧
    ∀ other, other ∈ later ↔ other ∈ places ∨ JoinedBelow schema place elements other

namespace StaysScoped

/-- An element that is not joined adds no place. -/
theorem cons {element : Element} (hrest : StaysScoped schema place places rest result)
    (helement : ∀ child, element = .bucket child →
      ¬ IsJoined schema place (place.child child.step)) :
    StaysScoped schema place places (element :: rest) result := by
  obtain ⟨later, hlater, hmember⟩ := hrest
  refine ⟨later, hlater, fun other => ?_⟩
  rw [hmember, joinedBelow_cons_of_not_joined helement]

/-- A joined bucket adds its place and those below it. -/
theorem cons_joined {child : Bucket} (hjoined : IsJoined schema place (place.child child.step))
    (hbelow : ∀ other, other ∈ below ↔
      JoinedBelow schema (place.child child.step) child.elements other)
    (hmiddle : ∀ other, other ∈ middle ↔
      other ∈ places ∨ other = place.child child.step ∨ other ∈ below)
    (hrest : StaysScoped schema place middle rest result) :
    StaysScoped schema place places (.bucket child :: rest) result := by
  obtain ⟨later, hlater, hmember⟩ := hrest
  refine ⟨later, hlater, fun other => ?_⟩
  rw [hmember, hmiddle, hbelow, joinedBelow_cons_of_joined hjoined, or_assoc]

end StaysScoped

/-- Going through elements at a place keeps what is gathered in scope. -/
theorem GatherRun.scoped (hkeys : schema.LegibleKeys)
    (hrun : GatherRun schema place elements gathered clauses memo result final after)
    (hplace : place.Legible) (hnamed : NamedElements LegibleName elements)
    (hclauses : clauses.Named KeyName) (hexact : Memo.Exact schema memo)
    (hscoped : Scoped schema place places gathered) :
    Memo.Exact schema after ∧ final.Named KeyName ∧
      StaysScoped schema place places elements result := by
  induction hrun generalizing places with
  | nil =>
      refine ⟨hexact, hclauses, places, hscoped, fun other => ?_⟩
      rw [or_iff_left not_joinedBelow_nil]
  | column hcolumn _ ih =>
      have hname : LegibleName _ := hnamed.own _ List.mem_cons_self
      obtain ⟨hrefers, hmiddle⟩ := column_refersTo hplace.keyed hname.keyName hexact hcolumn
      obtain ⟨hafter, hfinal, hresult⟩ :=
        ih hplace hnamed.tail hclauses hmiddle
          ⟨hscoped.joins, hscoped.refers.column (hrefers.mono Scoped.visible_root)⟩
      exact ⟨hafter, hfinal, hresult.cons nofun⟩
  | @deferred place child _ _ _ _ _ _ _ _ hjoin _ ih =>
      have hchild : child.Named LegibleName := hnamed.children child List.mem_cons_self
      obtain ⟨hmiddle, hjoined⟩ := joinOf?_exact hkeys hplace (hchild child .self).1 hexact hjoin
      obtain ⟨hafter, hfinal, hresult⟩ := ih hplace hnamed.tail hclauses hmiddle hscoped
      refine ⟨hafter, hfinal, hresult.cons fun other hother => ?_⟩
      obtain rfl := ElementOf.bucket.inj hother
      exact hjoined
  | @joined place child _ _ _ _ _ _ _ _ _ _ _ _ _ _ hjoin _ hgather _ ihnested ihrest =>
      have hchild : child.Named LegibleName := hnamed.children child List.mem_cons_self
      have hstep : child.step.Legible := (hchild child .self).1
      have hchildPlace : (place.child child.step).Legible := Path.Named.child hplace hstep
      obtain ⟨hfirst, hjoined⟩ := joinOf?_exact hkeys hplace hstep hexact hjoin
      -- the child is gathered from nothing, so what it joins are just the places below it
      obtain ⟨hsecond, hinner, below, hinnerScoped, hbelow⟩ :=
        ihnested hchildPlace hchild.elements ⟨nofun, nofun⟩ hfirst .empty
      obtain ⟨hthird, hnested⟩ :=
        gatherClauses_scoped hchildPlace.keyed hinner hsecond hinnerScoped hgather
      obtain ⟨middle, hmiddle, hmember⟩ := hscoped.joined hkeys hjoined hchildPlace hnested
      obtain ⟨hafter, hfinal, hresult⟩ := ihrest hplace hnamed.tail hclauses hthird hmiddle
      refine ⟨hafter, hfinal, hresult.cons_joined hjoined.isJoined (fun other => ?_) hmember⟩
      rw [hbelow, or_iff_right List.not_mem_nil]
  | clause hpush _ ih =>
      have hexpression : Expression.Named LegibleName _ := hnamed.own _ List.mem_cons_self
      have hnext := hclauses.push (fun clause hclause => (hexpression clause hclause).keyName) hpush
      obtain ⟨hafter, hfinal, hresult⟩ := ih hplace hnamed.tail hnext hexact hscoped
      exact ⟨hafter, hfinal, hresult.cons nofun⟩
  | row _ _ ih | limit _ ih | offset _ ih | total _ ih | beacon _ ih =>
      obtain ⟨hafter, hfinal, hresult⟩ :=
        ih hplace hnamed.tail hclauses hexact ⟨hscoped.joins, { hscoped.refers with }⟩
      exact ⟨hafter, hfinal, hresult.cons nofun⟩

/-- What a bucket asks for is in scope at its place. -/
theorem gather_scoped (hkeys : schema.LegibleKeys) {bucket : Bucket}
    (hnamed : bucket.Named LegibleName) (hexact : Memo.Exact schema memo)
    (hrun : Succeeds (gather schema bucket.rootPath bucket) memo gathered after) :
    Memo.Exact schema after ∧ ∃ places, Scoped schema bucket.rootPath places gathered ∧
      ∀ place, place ∈ places ↔ JoinedBelow schema bucket.rootPath bucket.elements place := by
  obtain ⟨inner, clauses, middle, helements, hclauses⟩ := gather_run hrun
  obtain ⟨hmiddle, hfinal, places, hscoped, hplaces⟩ :=
    helements.scoped hkeys hnamed.rootPath hnamed.elements ⟨nofun, nofun⟩ hexact .empty
  obtain ⟨hafter, hresult⟩ := gatherClauses_scoped (Path.Legible.keyed hnamed.rootPath) hfinal
    hmiddle hscoped hclauses
  refine ⟨hafter, places, hresult, fun place => ?_⟩
  rw [hplaces, or_iff_right List.not_mem_nil]

/-! ## Queries -/

/-- A join refers to its parent's place and to its own. -/
theorem JoinedAt.refersTo {parent : Path} {known : KnownJoin}
    (hjoin : JoinedAt schema parent place known) :
    known.join.condition.RefersTo (Visible schema [parent, place]) := by
  cases hjoin with
  | intro hlink howner hjoined =>
      refine Sql.Expr.refersTo_binary.mpr
        ⟨Sql.Expr.refersTo_ofTable.mpr ?_, Sql.Expr.refersTo_ofTable.mpr ?_⟩
      · exact ⟨parent, List.mem_cons_self, _, howner, rfl⟩
      · exact ⟨_, List.mem_cons_of_mem _ List.mem_cons_self, _, hjoined, rfl⟩

/-- The tables at the root and at the joined places are those of the query. -/
theorem Chained.mem_references {joins : List KnownJoin} (hchain : Chained schema root joins places)
    {query : Sql.Query} {table : Sql.TableRef} (hroot : schema.tableRef? root = some table)
    (htable : query.table = some table) (hjoins : query.joins = joins.map KnownJoin.join)
    (name : String) (hvisible : Visible schema (root :: places) name) :
    name ∈ query.references := by
  obtain ⟨place, hplace, found, hfound, rfl⟩ := hvisible
  apply List.mem_map_of_mem
  rw [Sql.Query.sources, htable, hjoins]
  rcases List.mem_cons.mp hplace with rfl | hplace
  · obtain rfl := Option.some.inj (hroot.symm.trans hfound)
    exact List.mem_append_left _ List.mem_cons_self
  · obtain ⟨known, hknown, parent, hjoin⟩ := hchain.exists_join hplace
    obtain rfl := Option.some.inj (hjoin.table.symm.trans hfound)
    exact List.mem_append_right _ (List.mem_map_of_mem (List.mem_map_of_mem hknown))

namespace Planner

variable {planner : Planner} {bucket : Bucket} {query : Sql.Query}

/-- A query is made of what was gathered in scope, below the table at the root. -/
theorem build_select (hextensions : planner.extensions = [])
    (hkeys : planner.schema.LegibleKeys) (hnamed : bucket.Named LegibleName)
    (hexact : Memo.Exact planner.schema memo)
    (hrun : Succeeds (planner.build bucket) memo (.select query) after) :
    ∃ gathered places table, Scoped planner.schema bucket.rootPath places gathered ∧
      (∀ place, place ∈ places ↔
        JoinedBelow planner.schema bucket.rootPath bucket.elements place) ∧
      planner.schema.tableRef? bucket.rootPath = some table ∧
      query.table = some table ∧ query.joins = gathered.joins.map KnownJoin.join ∧
      query.condition = gathered.condition? ∧ query.order = gathered.order ∧
      query.items = gathered.columns ++
        if gathered.total then [totalItem planner.totalField] else [] := by
  obtain ⟨gathered, middle, hgather, hplans⟩ := build_plans hrun
  obtain ⟨hmiddle, places, hscoped, hplaces⟩ := gather_scoped hkeys hnamed hexact hgather
  cases hplans with
  | select _ _ hparts =>
      obtain ⟨table, htable, rfl⟩ := parts_eq (.inl hextensions) hparts
      obtain ⟨hroot, -⟩ := Schema.table_exact (Path.Legible.keyed hnamed.rootPath) hmiddle
        (Succeeds.adapt_iff.mp htable)
      exact ⟨gathered, places, table, hscoped, hplaces, hroot, rfl, rfl, rfl, rfl, rfl⟩

/-- Every column that a query mentions is qualified by the name of its own table or of one
that it joins, and every join is made to what stands before it. -/
theorem build_inScope (hextensions : planner.extensions = [])
    (hkeys : planner.schema.LegibleKeys) (hnamed : bucket.Named LegibleName)
    (hexact : Memo.Exact planner.schema memo)
    (hrun : Succeeds (planner.build bucket) memo (.select query) after) : query.InScope := by
  obtain ⟨gathered, places, table, hscoped, -, hroot, htable, hjoins, hcondition, horder, hitems⟩ :=
    build_select hextensions hkeys hnamed hexact hrun
  have hnames := hscoped.joins.mem_references hroot htable hjoins
  refine ⟨?_, ?_, ?_, ?_⟩
  · rw [hitems]
    refine List.forall_mem_append.mpr
      ⟨fun item hitem => (hscoped.refers.columns item hitem).mono hnames, fun item hitem => ?_⟩
    split at hitem
    · rw [List.mem_singleton.mp hitem]
      exact Sql.Expr.refersTo_countAll
    · cases hitem
  · rw [hcondition]
    exact Sql.Expr.forall_mem_conjunction?
      (fun hleft hright => Sql.Expr.refersTo_binary.mpr ⟨hleft, hright⟩)
      fun condition hmem => (hscoped.refers.conditions condition hmem).mono hnames
  · rw [horder]
    exact fun key hkey => (hscoped.refers.order key hkey).mono hnames
  · intro before join behind hsplit
    rw [hjoins] at hsplit
    obtain ⟨earlierJoins, later, hparts, rfl, hlater⟩ := List.map_eq_append_iff.mp hsplit
    obtain ⟨known, laterJoins, rfl, rfl, -⟩ := List.map_eq_cons_iff.mp hlater
    have hchain := hscoped.joins
    rw [hparts] at hchain
    obtain ⟨earlier, parent, place, hbefore, hparent, hjoin⟩ := hchain.split
    refine (hjoin.refersTo.mono (Visible.mono ?_)).mono
      (hbefore.mem_references hroot htable (by simp))
    intro other hother
    rcases List.mem_pair.mp hother with rfl | rfl
    · rcases List.mem_cons.mp hparent with rfl | hparent
      · exact List.mem_cons_self
      · exact List.mem_cons_of_mem _ (List.mem_append_left _ hparent)
    · exact List.mem_cons_of_mem _ (List.mem_append_right _ List.mem_cons_self)

/-- Books with their authors and editors, and the cities these live in. -/
def peopledBooks : Schema where
  tables := [
    { name := "book", columns := ["id", "title", "author_id", "editor_id"] },
    { name := "person", columns := ["id", "name", "born", "city_id"] },
    { name := "city", columns := ["id", "name"] }]
  graph :=
    { tables := ["book", "person", "city"]
      foreignKeys := [⟨"book", "author_id", "person", "id"⟩,
        ⟨"book", "editor_id", "person", "id"⟩, ⟨"person", "city_id", "city", "id"⟩] }
  junctions := []

/-- Books with the cities of their authors and editors.  The author is asked for twice, and the
second time narrows and orders the books. -/
def booksByAuthor : Bucket where
  name := "book"
  elements := [.item (.column "title"),
    .bucket { name := "person", qualifier := some "author", elements := [
      .item (.column "name"),
      .bucket { name := "city", label := some "home", elements := [.item (.column "name")] }] },
    .bucket { name := "person", qualifier := some "editor", elements := [
      .bucket { name := "city", label := some "office", elements := [.item (.column "name")] }] },
    .bucket { name := "person", qualifier := some "author", elements := [
      .clause [.clause ⟨"born", .compare .lt (.int 1800)⟩],
      .clause [.clause ⟨"name", .sort .ascending⟩],
      .bucket { name := "city", label := some "home" }] },
    .total]

theorem build_inScope_peopledBooks :
    ∃ query after,
      Succeeds (build { schema := peopledBooks } booksByAuthor) {} (.select query) after ∧
        query.references = ["book", "book__author", "book__author__home", "book__editor",
          "book__editor__office"] ∧
        query.InScope := by
  have hrun : ∃ query after,
      Succeeds (build { schema := peopledBooks } booksByAuthor) {} (.select query) after ∧
        query.references = ["book", "book__author", "book__author__home", "book__editor",
          "book__editor__office"] := ⟨_, _, rfl, rfl⟩
  obtain ⟨query, after, hrun, hreferences⟩ := hrun
  have hkeys : peopledBooks.LegibleKeys := by decide
  have hnamed : booksByAuthor.Named LegibleName := by decide
  exact ⟨query, after, hrun, hreferences, build_inScope rfl hkeys hnamed (.empty _) hrun⟩

end Planner

end TreeQuery.Plan
