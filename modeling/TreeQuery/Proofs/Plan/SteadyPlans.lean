import TreeQuery.Proofs.Catalog.Steady
import TreeQuery.Proofs.Plan.Scope

/-!
# Steady planning

Planning asks the schema about the places of a request only.  When all names of a request can
be read back from the keys they are joined into, what is planned does not depend on what the
schema was asked before.
-/

namespace TreeQuery.Plan

open Catalog (Memo Schema)

variable {schema : Schema} {place childPlace : Path} {memo after : Memo}

/-! ## Joins -/

theorem steady_joinOf? (hschema : schema.Plain) (hplace : place.Keyed)
    (hchild : childPlace.Keyed) : schema.Steady (joinOf? schema place childPlace) := by
  rw [joinOf?]
  refine (Schema.steady_link hplace hchild).bind fun link hlink => ?_
  have hrelates := Schema.linkBetween_ok (hlink.linkBetween hplace hchild)
  obtain ⟨hsourceName, htargetName⟩ := hrelates.plainNames hschema
  obtain ⟨hsourcePath, htargetPath⟩ := hrelates.paths
  cases link with
  | manyToOne source target =>
      have hsource : source.Keyed := by
        refine ⟨?_, hsourceName.keyName⟩
        rw [show source.path = place from hsourcePath]
        exact hplace
      have htarget : target.Keyed := by
        refine ⟨?_, htargetName.keyName⟩
        rw [show target.path = childPlace from htargetPath]
        exact hchild
      refine (Schema.steady_column hsource).bind fun sourceColumn _ => ?_
      refine (Schema.steady_column htarget).bind fun targetColumn _ => ?_
      exact (Schema.steady_table hchild).bind fun table _ => .pure _
  | oneToMany source target => exact .pure none
  | manyToMany source interimSource interimTarget target => exact .pure none

/-- A nested bucket is joined exactly when its link is not deferred. -/
theorem joinOf?_isSome (hschema : schema.Plain) (hplace : Path.Plain place)
    (hchild : Path.Plain childPlace) {link : Catalog.Link}
    (hlink : schema.linkBetween place childPlace = .ok (some link)) {join : Option KnownJoin}
    (hexact : Memo.Exact schema memo)
    (hrun : Succeeds (joinOf? schema place childPlace) memo join after) :
    join.isSome = !link.isDeferred := by
  have hclosed := hexact.faithful.closed hschema
  obtain ⟨hgrows, known, hknown, hsome⟩ := joinOf?_succeeds hclosed hplace hchild hrun
  have hsame := (hexact.faithful.grows hschema hgrows).links _ _ known hplace hchild hknown
  obtain rfl := Schema.linkBetween_unique hlink hsame
  exact hsome

/-! ## Clauses -/

namespace Predicate

theorem steady_ofClause (hplace : place.Keyed) {clause : Clause} (hname : KeyName clause.column) :
    schema.Steady (ofClause schema place clause) := by
  have haddress : Address.Keyed ⟨clause.column, place⟩ := ⟨hplace, hname⟩
  refine (Schema.steady_column haddress).adapt.bind fun column _ => ?_
  split
  · exact .pure _
  · exact .throw _

theorem steady_reduce (hplace : place.Keyed) : ∀ {expression : Expression}
    {results : List (Option Sql.Expr)}, Expression.Named KeyName expression →
      schema.Steady (reduce schema place results expression)
  | [], _, _ => by
      rw [reduce]
      exact .pure _
  | .clause clause :: rest, _, hnamed => by
      obtain ⟨hname, hrest⟩ := List.forall_mem_cons.mp hnamed
      rw [reduce]
      exact (steady_ofClause hplace hname).bind fun _ _ => steady_reduce hplace hrest
  | .and :: rest, _, hnamed => by
      rw [reduce]
      exact (Schema.Steady.liftExcept _).bind fun _ _ => steady_reduce hplace hnamed
  | .or :: rest, _, hnamed => by
      rw [reduce]
      exact (Schema.Steady.liftExcept _).bind fun _ _ => steady_reduce hplace hnamed

theorem steady_ofExpression (hplace : place.Keyed) {expression : Expression}
    (hnamed : Expression.Named KeyName expression) :
    schema.Steady (ofExpression schema place expression) := by
  rw [ofExpression]
  split
  · exact .pure none
  · refine (steady_reduce hplace hnamed).bind fun results _ => ?_
    split
    · exact .pure _
    · exact .throw _

end Predicate

theorem SortKeys.steady_ofExpression (hplace : place.Keyed) : ∀ {expression : Expression},
    Expression.Named KeyName expression → schema.Steady (ofExpression schema place expression)
  | [], _ => by
      rw [ofExpression_nil]
      exact .pure []
  | .clause clause :: rest, hnamed => by
      obtain ⟨hname, hrest⟩ := List.forall_mem_cons.mp hnamed
      have haddress : Address.Keyed ⟨clause.column, place⟩ := ⟨hplace, hname⟩
      have hclause : schema.Steady (ofClause schema place clause) := by
        refine (Schema.steady_column haddress).adapt.bind fun column _ => ?_
        split
        · exact .pure _
        · exact .throw _
      rw [ofExpression_clause]
      exact hclause.bind fun _ _ => (steady_ofExpression hplace hrest).bind fun _ _ => .pure _
  | .and :: rest, hnamed => by
      rw [ofExpression_and]
      exact steady_ofExpression hplace hnamed
  | .or :: rest, _ => by
      rw [ofExpression_or]
      exact .throw _

/-- What clauses add depends neither on the memory nor on the columns that were gathered. -/
theorem gatherClauses_gives (hplace : place.Keyed) {clauses : ClauseSet}
    (hclauses : clauses.Named KeyName) {gathered result : Gathered}
    (hexact : Memo.Exact schema memo)
    (hrun : Succeeds (gatherClauses schema place gathered clauses) memo result after) :
    Memo.Exact schema after ∧ result.columns = gathered.columns ∧ ∀ columns,
      schema.Gives (gatherClauses schema place { gathered with columns } clauses)
        { result with columns } := by
  obtain ⟨condition, order, middle, hcondition, horder, rfl⟩ := gatherClauses_run hrun
  obtain ⟨hmiddle, hfilter⟩ :=
    Predicate.steady_ofExpression hplace hclauses.filter memo condition middle hexact hcondition
  obtain ⟨hafter, hkeys⟩ :=
    SortKeys.steady_ofExpression hplace hclauses.order middle order after hmiddle horder
  exact ⟨hafter, rfl, fun columns => hfilter.bind (hkeys.bind (.pure _))⟩

/-! ## Other columns -/

namespace Gathered

theorem addJoin_withColumns (gathered : Gathered) (known : KnownJoin)
    (columns : List Sql.SelectItem) :
    addJoin { gathered with columns } known = { gathered.addJoin known with columns } := by
  rw [addJoin_eq, addJoin_eq gathered]

/-- Columns are absorbed beside everything else. -/
theorem absorb_withColumns (gathered below : Gathered) (columns more : List Sql.SelectItem) :
    absorb { gathered with columns } { below with columns := more } =
      { gathered.absorb below with columns := columns ++ more } := by
  rw [absorb_eq, absorb_eq gathered]

end Gathered

/-! ## Queries -/

/-- Total and data are asked for by the bucket itself. -/
theorem gather_asks {root : Step} {bucket : Bucket} {gathered : Gathered}
    (hrun : Succeeds (gather schema [root] bucket) memo gathered after) :
    gathered.total = bucket.hasTotal ∧
      (gathered.columns ≠ [] ∨ gathered.total = true → bucket.isProjection = true) := by
  have hclosed : Memo.Closed schema (fun _ => True) memo :=
    fun _ _ _ _ _ _ _ _ => ⟨trivial, trivial⟩
  have hcollects := gather_succeeds hclosed trivial (fun _ _ _ _ _ _ => trivial) hrun
  obtain ⟨columns, hgathers, hcolumns⟩ := hcollects.columns
  have htotal : gathered.total = bucket.hasTotal := by
    rw [hcollects.total]
    simp [Bucket.hasTotal]
  refine ⟨htotal, fun hasks => bucket.isProjection_iff.mpr ?_⟩
  rcases hasks with hsome | hasTotal
  · have hne : columns ≠ [] := by
      rintro rfl
      exact hsome hcolumns
    cases hgathers.ne_nil_iff.mp hne with
    | own hcolumn => exact .inl ⟨_, hcolumn⟩
    | joined hchild => exact .inr (.inl ⟨_, hchild⟩)
  · exact .inr (.inr (htotal.symm.trans hasTotal))

namespace Planner

variable {planner : Planner} {bucket : Bucket} {path : Path} {gathered : Gathered}
  {parts : SelectParts}

/-- Without extensions, other columns change nothing but the select list. -/
theorem parts_gives (hextensions : planner.extensions = []) (hpath : path.Keyed)
    (hexact : Memo.Exact planner.schema memo)
    (hrun : Succeeds (planner.parts path gathered) memo parts after)
    (columns : List Sql.SelectItem) :
    planner.schema.Gives (planner.parts path { gathered with columns })
      { parts with
        items := columns ++ if gathered.total then [totalItem planner.totalField] else [] } := by
  obtain ⟨table, htable, rfl⟩ := parts_eq (.inl hextensions) hrun
  have hsteady : planner.schema.Steady (planner.tableAt path) :=
    (Schema.steady_table hpath).adapt
  obtain ⟨-, hgives⟩ := hsteady memo table after hexact htable
  rw [Planner.parts]
  refine hgives.bind (.liftExcept ?_)
  rw [hextensions]
  exact adjustParts_nil gathered.beacons _

/-- A bucket without rows that asks for data becomes a query of what was gathered. -/
theorem build_gives (planner : Planner)
    (hgather : planner.schema.Gives (gather planner.schema bucket.rootPath bucket) gathered)
    (hasks : gathered.columns ≠ [] ∨ gathered.total = true) (hrows : gathered.rows = [])
    (hparts : planner.schema.Gives (planner.parts bucket.rootPath gathered) parts) :
    planner.schema.Gives (planner.build bucket) (.select parts.query) := by
  have hselects : (!gathered.columns.isEmpty || gathered.total) = true := by simpa using hasks
  rw [build]
  refine hgather.bind ?_
  rw [if_pos hselects]
  apply Schema.Gives.map
  rw [selection, hrows]
  exact hparts.bind (.pure parts.query)

end Planner

end TreeQuery.Plan
