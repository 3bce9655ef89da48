import TreeQuery.Plan.ClauseSet
import TreeQuery.Plan.Predicate
import TreeQuery.Plan.SortKeys
import TreeQuery.Request.Bucket

/-!
# What a bucket asks for

A bucket is gone through element by element.  A nested bucket related
many-to-one is joined and gone through in turn, and what it asks for is added to
what its parent asks for.  Nested buckets related otherwise are left to
statements of their own.
-/

namespace TreeQuery.Plan

open Catalog (Link Lookup Schema)

/-- A join together with the text by which equal joins are recognized. -/
structure KnownJoin where
  identity : String
  join : Sql.Join

/-- What a bucket and the buckets joined to it ask for. -/
structure Gathered where
  columns : List Sql.SelectItem := []
  joins : List KnownJoin := []
  conditions : List Sql.Expr := []
  hasFilter : Bool := false
  order : List Sql.SortKey := []
  rows : List Record := []
  limit : Option Nat := none
  offset : Option Nat := none
  total : Bool := false
  beacons : List Beacon := []

namespace Gathered

/-- Adds a join unless an equal one is there. -/
def addJoin (gathered : Gathered) (known : KnownJoin) : Gathered :=
  if gathered.joins.any fun other => other.identity == known.identity then gathered
  else { gathered with joins := gathered.joins ++ [known] }

/-- Adds what a joined bucket asks for.  Slices, totals and beacons count only
where they are declared. -/
def absorb (gathered nested : Gathered) : Gathered :=
  let joined := nested.joins.foldl addJoin
    { gathered with columns := gathered.columns ++ nested.columns }
  { joined with
    conditions := joined.conditions ++ nested.conditions
    hasFilter := joined.hasFilter || nested.hasFilter
    order := joined.order ++ nested.order
    rows := joined.rows ++ nested.rows }

/-- The conjunction of all conditions, if there are any. -/
def condition? (gathered : Gathered) : Option Sql.Expr :=
  Sql.Expr.conjunction? gathered.conditions

/-- Joins with one more, unless an equal one is there. -/
def withJoin (joins : List KnownJoin) (known : KnownJoin) : List KnownJoin :=
  if joins.any fun other => other.identity == known.identity then joins else joins ++ [known]

/-- Adding a join changes nothing but the joins. -/
theorem addJoin_eq (gathered : Gathered) (known : KnownJoin) :
    gathered.addJoin known = { gathered with joins := withJoin gathered.joins known } := by
  unfold addJoin withJoin
  split <;> rfl

theorem foldl_addJoin_eq (joins : List KnownJoin) (gathered : Gathered) :
    joins.foldl addJoin gathered =
      { gathered with joins := joins.foldl withJoin gathered.joins } := by
  induction joins generalizing gathered with
  | nil => rfl
  | cons known rest ih => rw [List.foldl_cons, ih, addJoin_eq, List.foldl_cons]

/-- What was gathered, and then what was gathered below, but for joins that are there already
and for what counts only where it is declared. -/
theorem absorb_eq (gathered nested : Gathered) :
    gathered.absorb nested = { gathered with
      columns := gathered.columns ++ nested.columns
      joins := nested.joins.foldl withJoin gathered.joins
      conditions := gathered.conditions ++ nested.conditions
      hasFilter := gathered.hasFilter || nested.hasFilter
      order := gathered.order ++ nested.order
      rows := gathered.rows ++ nested.rows } := by
  rw [absorb, foldl_addJoin_eq]

end Gathered

/-- A count of a slice; zero stands for no slice. -/
def positive? (count : Nat) : Option Nat :=
  if 0 < count then some count else none

/-- The join of a nested bucket's table, when its link is many-to-one. -/
def joinOf? (schema : Schema) (path childPath : Path) :
    Lookup Catalog.SchemaError (Option KnownJoin) := do
  let link ← schema.link path childPath
  match link with
  | .manyToOne source target =>
      let sourceColumn ← schema.column source
      let targetColumn ← schema.column target
      let table ← schema.table childPath
      let condition := .binary .eq sourceColumn.expression targetColumn.expression
      return some ⟨link.identity, ⟨.left, table, condition⟩⟩
  | _ => return none

/-- Adds the clauses collected from a bucket to what its elements ask for. -/
def gatherClauses (schema : Schema) (path : Path) (gathered : Gathered) (clauses : ClauseSet) :
    Lookup Failure Gathered := do
  let condition ← Predicate.ofExpression schema path clauses.filter
  let order ← SortKeys.ofExpression schema path clauses.order
  return { gathered with
    hasFilter := gathered.hasFilter || clauses.hasFilter
    conditions := gathered.conditions ++ condition.toList
    order := gathered.order ++ order }

mutual

/-- What a bucket at a path asks for. -/
def gather (schema : Schema) (path : Path) : Bucket → Lookup Failure Gathered
  | ⟨name, _, _, elements⟩ => do
      let (gathered, clauses) ← gatherElements schema path name {} {} elements
      gatherClauses schema path gathered clauses

/-- Goes through the elements of a bucket. -/
def gatherElements (schema : Schema) (path : Path) (name : String) (gathered : Gathered)
    (clauses : ClauseSet) : List Element → Lookup Failure (Gathered × ClauseSet)
  | [] => return (gathered, clauses)
  | .item (.column column) :: rest => do
      let resolved ← (schema.column ⟨column, path⟩).adapt Failure.schema
      gatherElements schema path name
        { gathered with columns := gathered.columns ++ [resolved.item] } clauses rest
  | .item (.row row) :: rest => do
      if 1 < path.length then throw (.ambiguous name .nestedRow)
      gatherElements schema path name
        { gathered with rows := gathered.rows ++ [row] } clauses rest
  | .bucket nested :: rest => do
      let childPath := path.child nested.step
      match ← (joinOf? schema path childPath).adapt Failure.schema with
      | none => gatherElements schema path name gathered clauses rest
      | some join =>
          let below ← gather schema childPath nested
          gatherElements schema path name ((gathered.addJoin join).absorb below) clauses rest
  | .clause expression :: rest => do
      let clauses ← liftExcept (clauses.push expression)
      gatherElements schema path name gathered clauses rest
  | .slice (.limit count) :: rest =>
      gatherElements schema path name { gathered with limit := positive? count } clauses rest
  | .slice (.offset count) :: rest =>
      gatherElements schema path name { gathered with offset := positive? count } clauses rest
  | .total :: rest =>
      gatherElements schema path name
        { gathered with total := gathered.total || decide (path.length ≤ 1) } clauses rest
  | .beacon beacon :: rest =>
      gatherElements schema path name
        { gathered with beacons := gathered.beacons ++ [beacon] } clauses rest

end

/-- What one element adds to what was gathered before it. -/
def gatherElement (schema : Schema) (path : Path) (name : String) (gathered : Gathered)
    (clauses : ClauseSet) : Element → Lookup Failure (Gathered × ClauseSet)
  | .item (.column column) => do
      let resolved ← (schema.column ⟨column, path⟩).adapt Failure.schema
      return ({ gathered with columns := gathered.columns ++ [resolved.item] }, clauses)
  | .item (.row row) => do
      if 1 < path.length then throw (.ambiguous name .nestedRow)
      return ({ gathered with rows := gathered.rows ++ [row] }, clauses)
  | .bucket nested => do
      match ← (joinOf? schema path (path.child nested.step)).adapt Failure.schema with
      | none => return (gathered, clauses)
      | some join =>
          let below ← gather schema (path.child nested.step) nested
          return ((gathered.addJoin join).absorb below, clauses)
  | .clause expression => do
      let clauses ← liftExcept (clauses.push expression)
      return (gathered, clauses)
  | .slice (.limit count) => return ({ gathered with limit := positive? count }, clauses)
  | .slice (.offset count) => return ({ gathered with offset := positive? count }, clauses)
  | .total =>
      return ({ gathered with total := gathered.total || decide (path.length ≤ 1) }, clauses)
  | .beacon beacon => return ({ gathered with beacons := gathered.beacons ++ [beacon] }, clauses)

/-- Elements are gathered one after the other. -/
theorem gatherElements_cons (schema : Schema) (path : Path) (name : String) (gathered : Gathered)
    (clauses : ClauseSet) (element : Element) (rest : List Element) :
    gatherElements schema path name gathered clauses (element :: rest) =
      gatherElement schema path name gathered clauses element >>= fun found =>
        gatherElements schema path name found.1 found.2 rest := by
  cases element with
  | item item =>
      cases item with
      | column column => simp [gatherElements, gatherElement]
      | row row =>
          rw [gatherElements, gatherElement]
          split <;> rfl
  | bucket nested =>
      rw [gatherElements, gatherElement, bind_assoc]
      apply bind_congr
      intro join
      cases join with
      | none => rfl
      | some known => simp
  | clause expression => simp [gatherElements, gatherElement]
  | slice slice => cases slice <;> simp [gatherElements, gatherElement]
  | total => simp [gatherElements, gatherElement]
  | beacon beacon => simp [gatherElements, gatherElement]

end TreeQuery.Plan
