import TreeQuery.Plan.Planner
import TreeQuery.Session.Connection

/-!
# Writing

A bucket is written by the one statement it determines.  Several rows with a
filter are the exception: they become one update for each row, all with the same
filter.  Changed rows are counted in 64-bit words, so a sum of counts wraps around.
-/

namespace TreeQuery.Session

open Catalog (Schema)

/-- What writing depends on beside the request. -/
structure Writer where
  schema : Schema
  connection : Connection

/-- Whether a clause of the bucket filters rows. -/
def filtersRows (bucket : Bucket) : Bool :=
  (bucket.elements.filterMap ElementOf.clause?).any fun expression =>
    Expression.category expression == some .filter

/-- The bucket with the given row in place of all of its rows. -/
def withOnlyRow (bucket : Bucket) (row : Record) : Bucket :=
  { bucket with elements :=
      (bucket.elements.filter fun element => element.row?.isNone) ++ [.item (.row row)] }

namespace Writer

/-- The planner of a writer. -/
def planner (writer : Writer) : Plan.Planner where
  schema := writer.schema

/-- Executes a statement and counts the rows it changed. -/
def execute (writer : Writer) (statement : Sql.Statement) : Run UInt64 := do
  return (← writer.connection.callExecute statement).count

/-- Executes the statement of a bucket. -/
def perform (writer : Writer) (bucket : Bucket) : Run UInt64 := do
  writer.execute (← planning (writer.planner.build bucket))

/-- Deletes the rows of a table that an expression selects. -/
def delete (writer : Writer) (table : String) (expression : Expression) : Run UInt64 :=
  writer.perform { name := table, elements := [.clause expression] }

/-- Inserts rows into a table. -/
def insert (writer : Writer) (table : String) (rows : List Record) : Run UInt64 :=
  writer.perform { name := table, elements := rows.map fun row => .item (.row row) }

/-- Updates the rows of a table that an expression selects. -/
def update (writer : Writer) (table : String) (row : Record) (expression : Expression) :
    Run UInt64 :=
  writer.perform { name := table, elements := [.item (.row row), .clause expression] }

/-- Writes each row of a bucket by a statement of its own. -/
def writeRows (writer : Writer) (bucket : Bucket) : List Record → Run UInt64
  | [] => return 0
  | row :: rest => do
      let count ← writer.perform (withOnlyRow bucket row)
      return count + (← writeRows writer bucket rest)

/-- Writes a bucket by the one statement it determines. -/
def writeWhole (writer : Writer) (bucket : Bucket) : Run UInt64 := do
  let statement ← planning (writer.planner.build bucket)
  if statement.returnsRows then throw (.ambiguous bucket.name .writeSelects)
  writer.execute statement

/-- Writes a bucket and counts the rows it changed. -/
def write (writer : Writer) (bucket : Bucket) : Run UInt64 :=
  if 1 < bucket.rows.length && filtersRows bucket then writer.writeRows bucket bucket.rows
  else writer.writeWhole bucket

end Writer

end TreeQuery.Session
