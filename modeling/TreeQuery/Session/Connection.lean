import TreeQuery.Catalog.Resolution
import TreeQuery.Failure
import TreeQuery.Json.Value

/-!
# Connections and sessions

A connection answers calls.  Its answer may depend on every call made before,
so a connection is a function of that history, and the history together with
the remembered schema answers is all the state a session has.
-/

namespace TreeQuery.Session

/-- What an executed statement produced. -/
inductive Outcome where
  | rows (records : List Record)
  | affected (rowCount : UInt64)

/-- The rows of an outcome; a change has none. -/
def Outcome.toRows : Outcome → List Record
  | rows records => records
  | affected _ => []

/-- How many rows an outcome stands for. -/
def Outcome.count : Outcome → UInt64
  | rows records => .ofNat records.length
  | affected rowCount => rowCount

/-- A call to a connection. -/
inductive Call where
  | begin
  | execute (statement : Sql.Statement)
  | commit
  | rollback

/-- The calls made so far, the first one first. -/
abbrev History := List Call

/-- A connection to a store.  Each answer is given for the calls made before. -/
structure Connection where
  begin : History → Except ConnectionError Unit
  execute : History → Sql.Statement → Except ConnectionError Outcome
  commit : History → Except ConnectionError Unit
  rollback : History → Except ConnectionError Unit

/-- The state of a session. -/
structure State where
  memo : Catalog.Memo := {}
  history : History := []

/-- A computation within a session, which may fail. -/
abbrev Run (α : Type) := ExceptT Failure (StateM State) α

/-- Makes a call, which is part of the history from then on whatever the
answer. -/
def record {α : Type} (call : Call) (answer : History → Except ConnectionError α) : Run α := do
  let state ← get
  set { state with history := state.history ++ [call] }
  match answer state.history with
  | .ok value => return value
  | .error problem => throw (.connection problem)

namespace Connection

/-- Begins a transaction. -/
def callBegin (connection : Connection) : Run Unit :=
  record .begin connection.begin

/-- Executes a statement. -/
def callExecute (connection : Connection) (statement : Sql.Statement) : Run Outcome :=
  record (.execute statement) fun history => connection.execute history statement

/-- Commits a transaction. -/
def callCommit (connection : Connection) : Run Unit :=
  record .commit connection.commit

/-- Rolls a transaction back. -/
def callRollback (connection : Connection) : Run Unit :=
  record .rollback connection.rollback

end Connection

/-- Asks the schema within a session. -/
def planning {α : Type} (lookup : Catalog.Lookup Failure α) : Run α :=
  ExceptT.mk fun state =>
    let (result, memo) := lookup.run state.memo
    (result, { state with memo })

end TreeQuery.Session
