import TreeQuery.Storage.Engine

/-!
# A store of empty tables

What a database without rows answers: queries find nothing, insertions add as
many rows as they hold, and updates and deletions have nothing to change.  A store
that may only be read refuses all but queries.
-/

namespace TreeQuery.Storage

open Session (Connection Outcome)

/-- What a statement does to empty tables. -/
def outcome : Sql.Statement → Outcome
  | .select _ => .rows []
  | .insert change => .affected (.ofNat change.rows.length)
  | .update _ => .affected 0
  | .delete _ => .affected 0

/-- What executing a statement on empty tables answers. -/
def execute (isReadOnly : Bool) (statement : Sql.Statement) : Except ConnectionError Outcome :=
  if isReadOnly && !statement.returnsRows then .error .readOnlyStore
  else .ok (outcome statement)

/-- The engine of empty tables.  Its state says whether a transaction is open. -/
def emptyTables (isReadOnly : Bool) : Engine Bool where
  isOpen state := state
  begin _ := (.ok (), true)
  execute statement state := (execute isReadOnly statement, state)
  commit _ := (.ok (), false)
  rollback _ := (.ok (), false)

/-- The connection to a store of empty tables, in which no transaction is open. -/
def emptyStore (isReadOnly : Bool) : Connection :=
  (emptyTables isReadOnly).store false

end TreeQuery.Storage
