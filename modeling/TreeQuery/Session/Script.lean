import TreeQuery.Session.Connection

/-!
# Scripted connections

A scripted connection has its answers written down: one for each statement it
will be asked to execute, and for each transaction call whether it fails.
-/

namespace TreeQuery.Session

/-- The answers of a scripted connection, in the order they are given. -/
structure Script where
  begin : List (Option String) := []
  execute : List (Except ConnectionError Outcome) := []
  commit : List (Option String) := []
  rollback : List (Option String) := []

namespace Script

/-- The answer to a transaction call after `made` calls of its kind.  A missing
answer is a success. -/
def transactionAnswer (answers : List (Option String)) (made : Nat) :
    Except ConnectionError Unit :=
  match answers[made]? with
  | some (some reason) => .error (.transaction reason)
  | some none | none => .ok ()

/-- Whether a call executes a statement. -/
def isExecute : Call → Bool
  | .execute _ => true
  | _ => false

/-- Whether a call begins a transaction. -/
def isBegin : Call → Bool
  | .begin => true
  | _ => false

/-- Whether a call commits. -/
def isCommit : Call → Bool
  | .commit => true
  | _ => false

/-- Whether a call rolls back. -/
def isRollback : Call → Bool
  | .rollback => true
  | _ => false

/-- The connection that answers as written down. -/
def connection (script : Script) : Connection where
  begin history := transactionAnswer script.begin (history.countP isBegin)
  execute history _ :=
    match script.execute[history.countP isExecute]? with
    | some answer => answer
    | none => .error (.execution "script exhausted")
  commit history := transactionAnswer script.commit (history.countP isCommit)
  rollback history := transactionAnswer script.rollback (history.countP isRollback)

end Script

end TreeQuery.Session
