import TreeQuery.Session.Connection

/-!
# Database engines

An engine takes calls one after the other.  The store in front of it refuses transaction
calls that make no sense: a transaction can begin only when none is open, and end only
when one is.  A call that is refused for this reason does not reach the engine.
-/

namespace TreeQuery.Storage

open Session (Call Connection History Outcome)

/-- An engine: whether a transaction is open in a state, and for every call the answer
and the state after it. -/
structure Engine (σ : Type) where
  isOpen : σ → Bool
  begin : σ → Except ConnectionError Unit × σ
  execute : Sql.Statement → σ → Except ConnectionError Outcome × σ
  commit : σ → Except ConnectionError Unit × σ
  rollback : σ → Except ConnectionError Unit × σ

/-- Makes a transaction call if it is allowed, or says why it makes no sense. -/
def guarded {σ : Type} (allowed : Bool) (reason : String)
    (call : σ → Except ConnectionError Unit × σ) (state : σ) :
    Except ConnectionError Unit × σ :=
  if allowed then call state else (.error (.transaction reason), state)

namespace Engine

variable {σ : Type}

/-- Begins a transaction when none is open. -/
def tryBegin (engine : Engine σ) (state : σ) : Except ConnectionError Unit × σ :=
  guarded (!engine.isOpen state) "already in a transaction" engine.begin state

/-- Commits the transaction that is open. -/
def tryCommit (engine : Engine σ) (state : σ) : Except ConnectionError Unit × σ :=
  guarded (engine.isOpen state) "commit without begin" engine.commit state

/-- Rolls the transaction back that is open. -/
def tryRollback (engine : Engine σ) (state : σ) : Except ConnectionError Unit × σ :=
  guarded (engine.isOpen state) "rollback without begin" engine.rollback state

/-- The state after a call. -/
def after (engine : Engine σ) (state : σ) : Call → σ
  | .begin => (engine.tryBegin state).2
  | .execute statement => (engine.execute statement state).2
  | .commit => (engine.tryCommit state).2
  | .rollback => (engine.tryRollback state).2

/-- The state after some calls. -/
def afterAll (engine : Engine σ) (start : σ) (history : History) : σ :=
  history.foldl engine.after start

/-- The connection to an engine that starts in a state. -/
def store (engine : Engine σ) (start : σ) : Connection where
  begin history := (engine.tryBegin (engine.afterAll start history)).1
  execute history statement := (engine.execute statement (engine.afterAll start history)).1
  commit history := (engine.tryCommit (engine.afterAll start history)).1
  rollback history := (engine.tryRollback (engine.afterAll start history)).1

end Engine

end TreeQuery.Storage
