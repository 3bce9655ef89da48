import TreeQuery.Extension.Read

/-!
# From a bucket to a statement

What a bucket asks for determines the kind of its statement.  Columns or a total
make a query.  Otherwise rows without a filter are inserted, one row with a
filter is an update, and a filter without rows is a deletion; everything else
does not determine a statement.
-/

namespace TreeQuery.Plan

open Catalog (Lookup Schema)
open Extension (ReadExtension)

/-- What planning depends on beside the request. -/
structure Planner where
  schema : Schema
  extensions : List (String × ReadExtension) := []
  totalField : String := "total"

/-- Applies the extensions that the beacons ask for, in order. -/
def adjustParts (extensions : List (String × ReadExtension)) :
    List Beacon → SelectParts → Except Failure SelectParts
  | [], parts => .ok parts
  | beacon :: rest, parts =>
      match List.lookup beacon.key extensions with
      | none => adjustParts extensions rest parts
      | some extension => do
          adjustParts extensions rest (← extension.adjust beacon parts)

/-- The keys of the rows in the order in which they first occur. -/
def rowColumns (rows : List Record) : List String :=
  rows.foldl (fun columns row =>
    row.foldl (fun columns field =>
      if columns.contains field.1 then columns else columns ++ [field.1]) columns) []

/-- The value of a row under a column, null when it has none. -/
def cell (row : Record) (column : String) : Sql.Expr :=
  .ofJson ((row.get? column).getD .null)

namespace Planner

/-- The table of a path. -/
def tableAt (planner : Planner) (path : Path) : Lookup Failure Sql.TableRef :=
  (planner.schema.table path).adapt Failure.schema

/-- Makes sure that a column of a path exists. -/
def checkColumn (planner : Planner) (path : Path) (column : String) : Lookup Failure Unit := do
  let _ ← (planner.schema.column ⟨column, path⟩).adapt Failure.schema
  return

/-- The parts of a query, after the extensions. -/
def parts (planner : Planner) (path : Path) (gathered : Gathered) :
    Lookup Failure SelectParts := do
  let table ← planner.tableAt path
  let total := if gathered.total then [totalItem planner.totalField] else []
  liftExcept <| adjustParts planner.extensions gathered.beacons
    { table
      items := gathered.columns ++ total
      joins := gathered.joins.map KnownJoin.join
      condition := gathered.condition?
      order := gathered.order
      limit := gathered.limit
      offset := gathered.offset }

/-- The parts of the query of a bucket. -/
def selectParts (planner : Planner) (bucket : Bucket) : Lookup Failure SelectParts := do
  let path := bucket.rootPath
  planner.parts path (← gather planner.schema path bucket)

/-- The insertion of rows.  A row without a value for a column gets null. -/
def insertion (planner : Planner) (path : Path) (rows : List Record) :
    Lookup Failure Sql.Insert := do
  let columns := rowColumns rows
  columns.forM (planner.checkColumn path)
  let table ← planner.tableAt path
  return {
    schema := table.schema
    table := table.table
    columns
    rows := rows.map fun row => columns.map (cell row) }

/-- The update to one row. -/
def update (planner : Planner) (path : Path) (row : Record) (condition : Sql.Expr) :
    Lookup Failure Sql.Update := do
  let table ← planner.tableAt path
  row.forM fun field => planner.checkColumn path field.1
  return {
    schema := table.schema
    table := table.table
    assignments := row.map fun (column, value) => (column, .ofJson value)
    condition := some condition }

/-- The deletion of the rows that meet a condition. -/
def deletion (planner : Planner) (path : Path) (condition : Sql.Expr) :
    Lookup Failure Sql.Delete := do
  let table ← planner.tableAt path
  return { schema := table.schema, table := table.table, condition := some condition }

/-- The query of a bucket that asks for columns or a total. -/
def selection (planner : Planner) (bucket : Bucket) (path : Path) (gathered : Gathered) :
    Lookup Failure Sql.Query := do
  if !gathered.rows.isEmpty then throw (.ambiguous bucket.name .rowsWithColumns)
  return (← planner.parts path gathered).query

/-- The change of a bucket that asks for no data. -/
def change (planner : Planner) (bucket : Bucket) (path : Path) (gathered : Gathered) :
    Lookup Failure Sql.Statement :=
  match gathered.rows, gathered.hasFilter, gathered.condition? with
  | [], false, _ => throw (.ambiguous bucket.name .nothingAsked)
  | _, true, none => throw (.ambiguous bucket.name .vacuousFilter)
  | [], true, some condition => .delete <$> planner.deletion path condition
  | rows, false, _ => .insert <$> planner.insertion path rows
  | [row], true, some condition => .update <$> planner.update path row condition
  | rows, true, some _ => throw (.ambiguous bucket.name (.sharedFilter rows.length))

/-- The statement of a bucket. -/
def build (planner : Planner) (bucket : Bucket) : Lookup Failure Sql.Statement := do
  let path := bucket.rootPath
  let gathered ← gather planner.schema path bucket
  if !gathered.columns.isEmpty || gathered.total then
    .select <$> planner.selection bucket path gathered
  else planner.change bucket path gathered

end Planner

end TreeQuery.Plan
