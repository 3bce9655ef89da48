import TreeQuery.Proofs.Plan.Lookups

/-!
# How gathering goes

Gathering goes through the elements of a bucket one by one, and through those of the buckets
joined to it.  A successful run is taken apart here once, into the steps that were made, so that
what holds of all that is gathered is shown by one induction on these steps.
-/

namespace TreeQuery.Plan

open Catalog (Link Memo ResolvedColumn Schema)

/-- Looking for the join of a nested bucket: its link is asked for, and the columns and the
table of a link that is not left to a statement of its own. -/
inductive JoinRun (schema : Schema) (path childPath : Path) (memo : Memo) :
    Option KnownJoin → Memo → Prop
  | joined {source target : Address} {sourceColumn targetColumn : ResolvedColumn}
      {table : Sql.TableRef} {linked first second after : Memo}
      (hlink : Succeeds (schema.link path childPath) memo (.manyToOne source target) linked)
      (hsource : Succeeds (schema.column source) linked sourceColumn first)
      (htarget : Succeeds (schema.column target) first targetColumn second)
      (htable : Succeeds (schema.table childPath) second table after) :
      JoinRun schema path childPath memo (some ⟨(Link.manyToOne source target).identity,
        .left, table, .binary .eq sourceColumn.expression targetColumn.expression⟩) after
  | deferred {link : Link} {after : Memo}
      (hlink : Succeeds (schema.link path childPath) memo link after)
      (hdeferred : link.isDeferred = true) : JoinRun schema path childPath memo none after

theorem joinOf?_run {schema : Schema} {path childPath : Path} {join : Option KnownJoin}
    {memo after : Memo} (hrun : Succeeds (joinOf? schema path childPath) memo join after) :
    JoinRun schema path childPath memo join after := by
  rw [joinOf?] at hrun
  obtain ⟨link, linked, hlink, hrest⟩ := Succeeds.bind_iff.mp hrun
  cases link with
  | manyToOne source target =>
      obtain ⟨sourceColumn, first, hsource, hrest⟩ := Succeeds.bind_iff.mp hrest
      obtain ⟨targetColumn, second, htarget, hrest⟩ := Succeeds.bind_iff.mp hrest
      obtain ⟨table, third, htable, hrest⟩ := Succeeds.bind_iff.mp hrest
      obtain ⟨rfl, rfl⟩ := Succeeds.pure_iff.mp hrest
      exact .joined hlink hsource htarget htable
  | oneToMany | manyToMany =>
      obtain ⟨rfl, rfl⟩ := Succeeds.pure_iff.mp hrest
      exact .deferred hlink rfl

/-- Going through elements at a place, from what was gathered and remembered before to what is
gathered and remembered afterwards. -/
inductive GatherRun (schema : Schema) :
    Path → List Element → Gathered → ClauseSet → Memo → Gathered → ClauseSet → Memo → Prop
  | nil {place : Path} {gathered : Gathered} {clauses : ClauseSet} {memo : Memo} :
      GatherRun schema place [] gathered clauses memo gathered clauses memo
  | column {place : Path} {name : String} {rest : List Element} {gathered result : Gathered}
      {clauses final : ClauseSet} {memo middle after : Memo} {resolved : ResolvedColumn}
      (hcolumn : Succeeds (schema.column ⟨name, place⟩) memo resolved middle)
      (hrest : GatherRun schema place rest
        { gathered with columns := gathered.columns ++ [resolved.item] } clauses middle
        result final after) :
      GatherRun schema place (.item (.column name) :: rest) gathered clauses memo
        result final after
  | row {place : Path} {row : Record} {rest : List Element} {gathered result : Gathered}
      {clauses final : ClauseSet} {memo after : Memo} (hroot : place.length ≤ 1)
      (hrest : GatherRun schema place rest { gathered with rows := gathered.rows ++ [row] }
        clauses memo result final after) :
      GatherRun schema place (.item (.row row) :: rest) gathered clauses memo result final after
  | deferred {place : Path} {nested : Bucket} {rest : List Element} {gathered result : Gathered}
      {clauses final : ClauseSet} {memo middle after : Memo}
      (hjoin : Succeeds (joinOf? schema place (place.child nested.step)) memo none middle)
      (hrest : GatherRun schema place rest gathered clauses middle result final after) :
      GatherRun schema place (.bucket nested :: rest) gathered clauses memo result final after
  | joined {place : Path} {nested : Bucket} {rest : List Element}
      {gathered inner below result : Gathered} {clauses innerClauses final : ClauseSet}
      {memo first second third after : Memo} {join : KnownJoin}
      (hjoin : Succeeds (joinOf? schema place (place.child nested.step)) memo (some join) first)
      (hnested : GatherRun schema (place.child nested.step) nested.elements {} {} first
        inner innerClauses second)
      (hclauses : Succeeds (gatherClauses schema (place.child nested.step) inner innerClauses)
        second below third)
      (hrest : GatherRun schema place rest ((gathered.addJoin join).absorb below) clauses third
        result final after) :
      GatherRun schema place (.bucket nested :: rest) gathered clauses memo result final after
  | clause {place : Path} {expression : Expression} {rest : List Element}
      {gathered result : Gathered} {clauses next final : ClauseSet} {memo after : Memo}
      (hpush : clauses.push expression = .ok next)
      (hrest : GatherRun schema place rest gathered next memo result final after) :
      GatherRun schema place (.clause expression :: rest) gathered clauses memo
        result final after
  | limit {place : Path} {count : Nat} {rest : List Element} {gathered result : Gathered}
      {clauses final : ClauseSet} {memo after : Memo}
      (hrest : GatherRun schema place rest { gathered with limit := positive? count } clauses memo
        result final after) :
      GatherRun schema place (.slice (.limit count) :: rest) gathered clauses memo
        result final after
  | offset {place : Path} {count : Nat} {rest : List Element} {gathered result : Gathered}
      {clauses final : ClauseSet} {memo after : Memo}
      (hrest : GatherRun schema place rest { gathered with offset := positive? count } clauses
        memo result final after) :
      GatherRun schema place (.slice (.offset count) :: rest) gathered clauses memo
        result final after
  | total {place : Path} {rest : List Element} {gathered result : Gathered}
      {clauses final : ClauseSet} {memo after : Memo}
      (hrest : GatherRun schema place rest
        { gathered with total := gathered.total || decide (place.length ≤ 1) } clauses memo
        result final after) :
      GatherRun schema place (.total :: rest) gathered clauses memo result final after
  | beacon {place : Path} {beacon : Beacon} {rest : List Element} {gathered result : Gathered}
      {clauses final : ClauseSet} {memo after : Memo}
      (hrest : GatherRun schema place rest
        { gathered with beacons := gathered.beacons ++ [beacon] } clauses memo
        result final after) :
      GatherRun schema place (.beacon beacon :: rest) gathered clauses memo result final after

mutual

/-- Gathering a bucket goes through its elements and adds the clauses collected from them. -/
theorem gather_run {schema : Schema} : ∀ {bucket : Bucket} {place : Path} {memo after : Memo}
    {gathered : Gathered}, Succeeds (gather schema place bucket) memo gathered after →
      ∃ inner clauses middle,
        GatherRun schema place bucket.elements {} {} memo inner clauses middle ∧
          Succeeds (gatherClauses schema place inner clauses) middle gathered after
  | ⟨_, _, _, _⟩, _, _, _, _, hrun => by
      rw [gather] at hrun
      obtain ⟨⟨inner, clauses⟩, middle, helements, hclauses⟩ := Succeeds.bind_iff.mp hrun
      exact ⟨inner, clauses, middle, gatherElements_run helements, hclauses⟩

theorem gatherElements_run {schema : Schema} : ∀ {elements : List Element} {place : Path}
    {name : String} {gathered result : Gathered} {clauses final : ClauseSet} {memo after : Memo},
      Succeeds (gatherElements schema place name gathered clauses elements) memo (result, final)
        after → GatherRun schema place elements gathered clauses memo result final after
  | [], _, _, _, _, _, _, _, _, hrun => by
      rw [gatherElements] at hrun
      obtain ⟨hresult, rfl⟩ := Succeeds.pure_iff.mp hrun
      obtain ⟨rfl, rfl⟩ := Prod.mk.inj hresult
      exact .nil
  | .item (.column name) :: rest, _, _, _, _, _, _, _, _, hrun => by
      rw [gatherElements] at hrun
      obtain ⟨resolved, middle, hcolumn, hrest⟩ := Succeeds.bind_iff.mp hrun
      exact .column (Succeeds.adapt_iff.mp hcolumn) (gatherElements_run hrest)
  | .item (.row row) :: rest, _, _, _, _, _, _, _, _, hrun => by
      rw [gatherElements] at hrun
      split at hrun
      · obtain ⟨_, _, hthrow, _⟩ := Succeeds.bind_iff.mp hrun
        exact absurd hthrow Succeeds.not_throw
      · next hroot => exact .row (Nat.not_lt.mp hroot) (gatherElements_run hrun)
  | .bucket nested :: rest, _, _, _, _, _, _, _, _, hrun => by
      rw [gatherElements] at hrun
      obtain ⟨join, first, hjoin, hrest⟩ := Succeeds.bind_iff.mp hrun
      cases join with
      | none => exact .deferred (Succeeds.adapt_iff.mp hjoin) (gatherElements_run hrest)
      | some join =>
          obtain ⟨below, third, hbelow, hrest⟩ := Succeeds.bind_iff.mp hrest
          obtain ⟨inner, clauses, second, hnested, hclauses⟩ := gather_run hbelow
          exact .joined (Succeeds.adapt_iff.mp hjoin) hnested hclauses (gatherElements_run hrest)
  | .clause expression :: rest, _, _, _, _, _, _, _, _, hrun => by
      rw [gatherElements] at hrun
      obtain ⟨next, middle, hlift, hrest⟩ := Succeeds.bind_iff.mp hrun
      obtain ⟨hpush, rfl⟩ := Succeeds.liftExcept_iff.mp hlift
      exact .clause hpush (gatherElements_run hrest)
  | .slice (.limit count) :: rest, _, _, _, _, _, _, _, _, hrun => by
      rw [gatherElements] at hrun
      exact .limit (gatherElements_run hrun)
  | .slice (.offset count) :: rest, _, _, _, _, _, _, _, _, hrun => by
      rw [gatherElements] at hrun
      exact .offset (gatherElements_run hrun)
  | .total :: rest, _, _, _, _, _, _, _, _, hrun => by
      rw [gatherElements] at hrun
      exact .total (gatherElements_run hrun)
  | .beacon beacon :: rest, _, _, _, _, _, _, _, _, hrun => by
      rw [gatherElements] at hrun
      exact .beacon (gatherElements_run hrun)

end

/-- The clauses of a bucket become one condition at most, and sort keys. -/
theorem gatherClauses_run {schema : Schema} {place : Path} {gathered result : Gathered}
    {clauses : ClauseSet} {memo after : Memo}
    (hrun : Succeeds (gatherClauses schema place gathered clauses) memo result after) :
    ∃ condition order middle,
      Succeeds (Predicate.ofExpression schema place clauses.filter) memo condition middle ∧
        Succeeds (SortKeys.ofExpression schema place clauses.order) middle order after ∧
          result = { gathered with
            hasFilter := gathered.hasFilter || clauses.hasFilter
            conditions := gathered.conditions ++ condition.toList
            order := gathered.order ++ order } := by
  rw [gatherClauses] at hrun
  obtain ⟨condition, middle, hcondition, hrest⟩ := Succeeds.bind_iff.mp hrun
  obtain ⟨order, last, horder, hrest⟩ := Succeeds.bind_iff.mp hrest
  obtain ⟨rfl, rfl⟩ := Succeeds.pure_iff.mp hrest
  exact ⟨condition, order, middle, hcondition, horder, rfl⟩

/-- The rows of the elements are gathered in order, and there are none below the root. -/
theorem GatherRun.rows {schema : Schema} {place : Path} {elements : List Element}
    {gathered result : Gathered} {clauses final : ClauseSet} {memo after : Memo}
    (hrun : GatherRun schema place elements gathered clauses memo result final after)
    (hplace : place ≠ []) :
    result.rows = gathered.rows ++ elements.filterMap ElementOf.row? ∧
      (1 < place.length → elements.filterMap ElementOf.row? = []) := by
  induction hrun with
  | nil => exact ⟨(List.append_nil _).symm, fun _ => rfl⟩
  | row hroot _ ih =>
      obtain ⟨hrows, -⟩ := ih hplace
      refine ⟨?_, fun hdeep => absurd hroot hdeep.not_ge⟩
      rw [hrows, List.append_assoc]
      rfl
  | @joined place nested _ _ inner _ _ _ _ _ _ _ _ _ _ _ _ _ hclauses _ ihnested ihrest =>
      obtain ⟨hrows, hnone⟩ := ihrest hplace
      obtain ⟨hinner, hinnerNone⟩ := ihnested (by simp [Path.child])
      obtain ⟨condition, order, _, -, -, rfl⟩ := gatherClauses_run hclauses
      -- the child's place is below the root, so the child has no rows
      have hdeep : 1 < (place.child nested.step).length := by
        have hpositive := List.length_pos_iff.mpr hplace
        simp only [Path.child, List.length_append, List.length_singleton]
        omega
      rw [hinnerNone hdeep] at hinner
      have hbelow : inner.rows = [] := hinner
      refine ⟨?_, hnone⟩
      rw [hrows, Gathered.absorb_eq, Gathered.addJoin_eq]
      simp only [hbelow, List.append_nil]
      rfl
  | column _ _ ih | deferred _ _ ih | clause _ _ ih | limit _ ih | offset _ ih | total _ ih
  | beacon _ ih => exact ih hplace

/-- The rows of a bucket at the root are gathered in order. -/
theorem gather_rows {schema : Schema} {bucket : Bucket} {memo after : Memo}
    {gathered : Gathered}
    (hrun : Succeeds (gather schema bucket.rootPath bucket) memo gathered after) :
    gathered.rows = bucket.rows := by
  obtain ⟨inner, clauses, middle, helements, hclauses⟩ := gather_run hrun
  obtain ⟨condition, order, _, -, -, rfl⟩ := gatherClauses_run hclauses
  exact (helements.rows (List.cons_ne_nil _ _)).1

end TreeQuery.Plan
