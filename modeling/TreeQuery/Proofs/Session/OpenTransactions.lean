import TreeQuery.Proofs.Session.Calls
import TreeQuery.Session.Script

/-!
# Transactions that stay open

A transaction is over once a commit was granted, or once it was rolled back and nothing failed
after that.  Work that fails always ends its transaction.  Work that succeeds leaves it open when
the commit is refused: then there is no rollback, and a connection that does not nest transactions
cannot begin the next one.
-/

namespace TreeQuery.Session

variable {α : Type}

namespace Connection

/-- Whether the connection grants a call that follows others. -/
def Grants (connection : Connection) (before : History) : Call → Prop
  | .begin => connection.begin before = .ok ()
  | .execute statement => ∃ outcome, connection.execute before statement = .ok outcome
  | .commit => connection.commit before = .ok ()
  | .rollback => connection.rollback before = .ok ()

/-- Whether the connection grants each of the calls that follow others. -/
def GrantsAll (connection : Connection) : History → List Call → Prop
  | _, [] => True
  | before, call :: rest =>
      connection.Grants before call ∧ connection.GrantsAll (before ++ [call]) rest

/-- One of the calls is a commit that is granted. -/
def Commits (connection : Connection) (before : History) (calls : List Call) : Prop :=
  ∃ earlier later, calls = earlier ++ .commit :: later ∧
    connection.Grants (before ++ earlier) .commit

/-- One of the calls is a rollback, and none after it is refused. -/
def RollsBack (connection : Connection) (before : History) (calls : List Call) : Prop :=
  ∃ earlier later, calls = earlier ++ .rollback :: later ∧
    connection.GrantsAll (before ++ earlier ++ [.rollback]) later

/-- The calls end a transaction that was begun before them. -/
def Ends (connection : Connection) (before : History) (calls : List Call) : Prop :=
  connection.Commits before calls ∨ connection.RollsBack before calls

variable {connection : Connection} {before : History} {calls : List Call}

theorem grantsAll_append {later : List Call} :
    connection.GrantsAll before (calls ++ later) ↔
      connection.GrantsAll before calls ∧ connection.GrantsAll (before ++ calls) later := by
  induction calls generalizing before with
  | nil => simp [GrantsAll]
  | cons call rest ih => simp [GrantsAll, ih, and_assoc]

/-- A call among others and one more is that last one, or it is among the others. -/
theorem split_concat_iff {call last : Call} {earlier later : List Call} :
    calls ++ [last] = earlier ++ call :: later ↔
      (calls = earlier ∧ last = call ∧ later = []) ∨
        ∃ rest, later = rest ++ [last] ∧ calls = earlier ++ call :: rest := by
  rcases List.eq_nil_or_concat later with rfl | ⟨rest, other, rfl⟩
  · simp
  · rw [List.concat_eq_append, ← List.cons_append, ← List.append_assoc]
    constructor
    · intro hall
      obtain ⟨hcalls, hlast⟩ := List.append_inj' hall rfl
      exact .inr ⟨rest, by rw [hlast], hcalls⟩
    · rintro (⟨-, -, hnil⟩ | ⟨found, hrest, rfl⟩)
      · simp at hnil
      · obtain ⟨rfl, hlast⟩ := List.append_inj' hrest rfl
        rw [hlast]

theorem not_commits_nil : ¬ connection.Commits before [] := by
  rintro ⟨earlier, later, hnil, -⟩
  simp at hnil

theorem commits_commit_iff :
    connection.Commits before (calls ++ [.commit]) ↔
      connection.Commits before calls ∨ connection.Grants (before ++ calls) .commit := by
  simp only [Commits, split_concat_iff]
  constructor
  · rintro ⟨earlier, later, ⟨rfl, -, -⟩ | ⟨rest, -, hcalls⟩, hgrants⟩
    · exact .inr hgrants
    · exact .inl ⟨earlier, rest, hcalls, hgrants⟩
  · rintro (⟨earlier, later, hcalls, hgrants⟩ | hgrants)
    · exact ⟨earlier, _, .inr ⟨later, rfl, hcalls⟩, hgrants⟩
    · exact ⟨calls, [], by simp, hgrants⟩

/-- After a commit that is refused, no rollback before it counts. -/
theorem grants_of_rollsBack_commit (hrollsBack : connection.RollsBack before (calls ++ [.commit])) :
    connection.Grants (before ++ calls) .commit := by
  obtain ⟨earlier, later, hcalls, hgrants⟩ := hrollsBack
  rcases split_concat_iff.mp hcalls with ⟨-, hcall, -⟩ | ⟨rest, rfl, rfl⟩
  · cases hcall
  · simpa using (grantsAll_append.mp hgrants).2.1

theorem ends_commit_iff :
    connection.Ends before (calls ++ [.commit]) ↔
      connection.Commits before calls ∨ connection.Grants (before ++ calls) .commit := by
  rw [Ends, commits_commit_iff, or_iff_left_of_imp]
  exact fun hrollsBack => .inr (grants_of_rollsBack_commit hrollsBack)

/-- A rollback that comes last ends a transaction, even when it is refused. -/
theorem ends_rollback : connection.Ends before (calls ++ [.rollback]) :=
  .inr ⟨calls, [], rfl, trivial⟩

end Connection

/-- A transaction that was begun stays open if and only if its work succeeds, the commit is
refused, and the work did not have a commit granted itself. -/
theorem transaction_stays_open_iff {connection : Connection} {work : Run α} {start middle : State}
    {result : Except Failure α} {made : List Call}
    (hbegin : connection.begin start.history = .ok ())
    (hwork : Makes work (start.called .begin) result made middle) :
    ∃ outcome calls finish,
      Makes (transaction connection work) start outcome (.begin :: calls) finish ∧
        (¬ connection.Ends (start.history ++ [.begin]) calls ↔
          (∃ value, result = .ok value) ∧
            ¬ connection.Grants (start.history ++ .begin :: made) .commit ∧
              ¬ connection.Commits (start.history ++ [.begin]) made) := by
  cases result with
  | error failure =>
      refine ⟨_, _, _, hwork.transaction_rolledBack hbegin, ?_⟩
      simp [Connection.ends_rollback]
  | ok value =>
      refine ⟨_, made ++ [.commit], _, hwork.transaction_committed hbegin, ?_⟩
      have hbefore : start.history ++ [.begin] ++ made = start.history ++ .begin :: made := by
        rw [List.append_assoc, List.singleton_append]
      rw [Connection.ends_commit_iff, hbefore, not_or, and_comm]
      simp

/-- A store that is busy at the first commit and does not nest transactions. -/
def busyStore : Script where
  begin := [none, some "already in a transaction"]
  commit := [some "database is locked"]

theorem transaction_stays_open_busyStore :
    busyStore.connection.begin [] = .ok () ∧
      Makes (pure 7 : Run Nat) (({} : State).called .begin) (.ok 7) []
        (({} : State).called .begin) ∧
      ∃ outcome calls finish,
        Makes (transaction busyStore.connection (pure 7 : Run Nat)) {} outcome (.begin :: calls)
          finish ∧
        (¬ busyStore.connection.Ends ([] ++ [.begin]) calls ↔
          (∃ value, (.ok 7 : Except Failure Nat) = .ok value) ∧
            ¬ busyStore.connection.Grants ([] ++ [.begin]) .commit ∧
              ¬ busyStore.connection.Commits ([] ++ [.begin]) []) := by
  have hbegin : busyStore.connection.begin [] = .ok () := rfl
  have hwork := Makes.pure 7 (({} : State).called .begin)
  exact ⟨hbegin, hwork, transaction_stays_open_iff hbegin hwork⟩

/-- Work that succeeds stays uncommitted in the busy store, its transaction is not rolled back,
and the next one cannot begin. -/
theorem busyStore_stuck :
    ∃ finish next,
      Makes (transaction busyStore.connection (pure 7 : Run Nat)) {}
          (.error (.connection (.transaction "database is locked"))) [.begin, .commit] finish ∧
        ¬ busyStore.connection.Ends [.begin] [.commit] ∧
        Makes (transaction busyStore.connection (pure 8 : Run Nat)) finish
          (.error (.connection (.transaction "already in a transaction"))) [.begin] next := by
  have hfirst : busyStore.connection.begin ({} : State).history = .ok () := rfl
  have hlast : busyStore.connection.begin [.begin, .commit] =
      .error (.transaction "already in a transaction") := rfl
  have hopen : ¬ busyStore.connection.Ends [.begin] ([] ++ [.commit]) := by
    rw [Connection.ends_commit_iff, not_or]
    exact ⟨Connection.not_commits_nil, fun hgrants => nomatch hgrants⟩
  exact ⟨_, _, (Makes.pure 7 _).transaction_committed hfirst, hopen,
    Makes.transaction_unbegun hlast⟩

end TreeQuery.Session
