import TreeQuery.Session.Connection

/-!
# Transactions

Work inside a transaction is committed when it succeeds.  When it fails the
transaction is rolled back, and the failure of the work is the failure of the
whole, whatever the rollback says.
-/

namespace TreeQuery.Session

/-- Runs work between the given beginning and ends, in any monad. -/
def bracket {m : Type → Type} [Monad m] {α : Type}
    (begin commit rollback : ExceptT Failure m Unit) (work : ExceptT Failure m α) :
    ExceptT Failure m α := ExceptT.mk do
  match ← begin.run with
  | .error failure => return .error failure
  | .ok () =>
      match ← work.run with
      | .ok value =>
          match ← commit.run with
          | .ok () => return .ok value
          | .error failure => return .error failure
      | .error failure =>
          let _ ← rollback.run
          return .error failure

/-- Runs work inside a transaction of a connection. -/
def transaction {α : Type} (connection : Connection) (work : Run α) : Run α :=
  bracket connection.callBegin connection.callCommit connection.callRollback work

end TreeQuery.Session
