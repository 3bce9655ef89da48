import TreeQuery.Proofs.Runs
import TreeQuery.Session.Transaction

/-!
# Calls made by a run

A run adds calls to the history, whether it succeeds or fails.  Runs of composed steps are put
together here from the runs of their parts, failures included, and what holds of every call of
the parts holds of every call of the whole.
-/

namespace TreeQuery.Session

variable {α β : Type}

/-- Run from a state, a step has an outcome, adds calls to the history and ends in another
state. -/
structure Makes (step : Run α) (start : State) (outcome : Except Failure α) (calls : List Call)
    (finish : State) : Prop where
  run : Id.run (step.run.run start) = (outcome, finish)
  history : finish.history = start.history ++ calls

/-- The state after one more call. -/
def State.called (state : State) (call : Call) : State :=
  { state with history := state.history ++ [call] }

/-- The one call that ends a transaction, and what it makes of the outcome of the work. -/
def Connection.ending (connection : Connection) : Except Failure α → Run α
  | .ok value => do
      connection.callCommit
      return value
  | .error failure => ExceptT.mk do
      let _ ← connection.callRollback.run
      return .error failure

namespace Makes

variable {step first : Run α} {next : α → Run β} {start middle finish : State}
  {calls later : List Call} {failure : Failure} {value : α}

/-- From one state a step has one outcome and makes one list of calls. -/
theorem unique {outcome other : Except Failure α} (hmakes : Makes step start outcome calls finish)
    (hother : Makes step start other later middle) :
    other = outcome ∧ later = calls ∧ middle = finish := by
  obtain ⟨rfl, rfl⟩ := Prod.mk.inj (hother.run.symm.trans hmakes.run)
  refine ⟨rfl, ?_, rfl⟩
  exact List.append_cancel_left (hother.history.symm.trans hmakes.history)

theorem pure (value : α) (start : State) : Makes (pure value) start (.ok value) [] start :=
  ⟨rfl, (List.append_nil _).symm⟩

theorem throw (failure : Failure) (start : State) :
    Makes (throw failure : Run α) start (.error failure) [] start :=
  ⟨rfl, (List.append_nil _).symm⟩

theorem liftExcept (outcome : Except Failure α) (start : State) :
    Makes (liftExcept outcome) start outcome [] start := by
  cases outcome with
  | error failure => exact throw failure start
  | ok value => exact pure value start

theorem bind {outcome : Except Failure β} (hfirst : Makes first start (.ok value) calls middle)
    (hnext : Makes (next value) middle outcome later finish) :
    Makes (first >>= next) start outcome (calls ++ later) finish := by
  constructor
  · rw [run_bind, hfirst.run]
    exact hnext.run
  · rw [hnext.history, hfirst.history, List.append_assoc]

theorem bind_error (hfirst : Makes first start (.error failure) calls finish) :
    Makes (first >>= next) start (.error failure) calls finish := by
  refine ⟨?_, hfirst.history⟩
  rw [run_bind, hfirst.run]

theorem map {outcome : Except Failure α} (change : α → β)
    (hstep : Makes step start outcome calls finish) :
    Makes (change <$> step) start (outcome.map change) calls finish := by
  rw [map_eq_pure_bind]
  cases outcome with
  | error failure => exact hstep.bind_error
  | ok value =>
      have hboth : Makes (step >>= fun found => Pure.pure (change found)) start
          (.ok (change value)) (calls ++ []) finish := hstep.bind (pure (change value) finish)
      rwa [List.append_nil] at hboth

/-- Asking the schema makes no call. -/
theorem planning {lookup : Catalog.Lookup Failure α} {outcome : Except Failure α}
    {after : Catalog.Memo} (hrun : Id.run (lookup.run.run start.memo) = (outcome, after)) :
    Makes (planning lookup) start outcome [] { start with memo := after } := by
  refine ⟨?_, (List.append_nil _).symm⟩
  change (let (result, memo) := Id.run (lookup.run.run start.memo)
    (result, { start with memo })) = _
  rw [hrun]

/-- A call is part of the history whatever the answer. -/
theorem record (call : Call) (answer : History → Except ConnectionError α) (start : State) :
    Makes (record call answer) start ((answer start.history).mapError .connection) [call]
      (start.called call) := by
  refine ⟨?_, rfl⟩
  have hget : Succeeds (get : Run State) start start start := Succeeds.get_iff.mpr ⟨rfl, rfl⟩
  have hset : Succeeds (set { start with history := start.history ++ [call] } : Run PUnit)
      start () (start.called call) := Succeeds.set_iff.mpr rfl
  rw [Session.record, run_bind, hget]
  dsimp only
  rw [run_bind, hset]
  cases answer start.history <;> rfl

/-! ## Transactions -/

variable {connection : Connection} {work : Run α}

/-- A transaction that cannot be begun makes no other call. -/
theorem transaction_unbegun {problem : ConnectionError}
    (hbegin : connection.begin start.history = .error problem) :
    Makes (transaction connection work) start (.error (.connection problem)) [.begin]
      (start.called .begin) := by
  have hcall := record .begin connection.begin start
  rw [hbegin] at hcall
  refine ⟨?_, rfl⟩
  rw [transaction, bracket, ExceptT.run_mk, StateT.run_bind, Id.run_bind, Connection.callBegin,
    hcall.run]
  rfl

/-- Once it is begun, a transaction runs its work and then the call that ends it. -/
theorem transaction_run {outcome : Except Failure α}
    (hbegin : connection.begin start.history = .ok ())
    (hwork : Makes work (start.called .begin) outcome calls middle) :
    Id.run ((transaction connection work).run.run start) =
      Id.run ((connection.ending outcome).run.run middle) := by
  have hcall := record .begin connection.begin start
  rw [hbegin] at hcall
  rw [transaction, bracket, ExceptT.run_mk, StateT.run_bind, Id.run_bind, Connection.callBegin,
    hcall.run]
  change Id.run ((work.run >>= _).run (start.called .begin)) = _
  rw [StateT.run_bind, Id.run_bind, hwork.run]
  cases outcome with
  | error failure => rfl
  | ok value =>
      rw [Connection.ending, run_bind]
      change Id.run ((connection.callCommit.run >>= _).run middle) = _
      rw [StateT.run_bind, Id.run_bind]
      rcases Id.run (connection.callCommit.run.run middle) with ⟨_ | _, last⟩ <;> rfl

/-- Work that succeeds is committed, and whether that succeeds decides. -/
theorem transaction_committed (hbegin : connection.begin start.history = .ok ())
    (hwork : Makes work (start.called .begin) (.ok value) calls middle) :
    Makes (transaction connection work) start
      (((connection.commit middle.history).mapError .connection).map fun _ => value)
      (.begin :: calls ++ [.commit]) (middle.called .commit) := by
  constructor
  · rw [transaction_run hbegin hwork, Connection.ending, run_bind, Connection.callCommit,
      (record .commit connection.commit middle).run]
    cases connection.commit middle.history <;> rfl
  · simp [State.called, hwork.history]

/-- Work that fails is rolled back, and its failure stands whatever the rollback says. -/
theorem transaction_rolledBack (hbegin : connection.begin start.history = .ok ())
    (hwork : Makes work (start.called .begin) (.error failure) calls middle) :
    Makes (transaction connection work) start (.error failure) (.begin :: calls ++ [.rollback])
      (middle.called .rollback) := by
  constructor
  · rw [transaction_run hbegin hwork, Connection.ending, ExceptT.run_mk, StateT.run_bind,
      Id.run_bind, Connection.callRollback, (record .rollback connection.rollback middle).run]
    rfl
  · simp [State.called, hwork.history]

end Makes

/-! ## Calls of one kind -/

/-- From whatever state it is run, a step makes calls of one kind only. -/
def OnlyCalls (kind : Call → Prop) (step : Run α) : Prop :=
  ∀ start, ∃ outcome calls finish, Makes step start outcome calls finish ∧
    ∀ call ∈ calls, kind call

namespace OnlyCalls

variable {kind : Call → Prop} {step first : Run α} {next : α → Run β}

/-- A step that makes no call at all keeps to every kind. -/
theorem of_silent (hsilent : ∀ start, ∃ outcome finish, Makes step start outcome [] finish) :
    OnlyCalls kind step := by
  intro start
  obtain ⟨outcome, finish, hmakes⟩ := hsilent start
  exact ⟨outcome, [], finish, hmakes, fun _ hcall => absurd hcall List.not_mem_nil⟩

theorem pure (value : α) : OnlyCalls kind (pure value) :=
  of_silent fun start => ⟨_, _, Makes.pure value start⟩

theorem throw (failure : Failure) : OnlyCalls kind (throw failure : Run α) :=
  of_silent fun start => ⟨_, _, Makes.throw failure start⟩

theorem liftExcept (outcome : Except Failure α) : OnlyCalls kind (liftExcept outcome) :=
  of_silent fun start => ⟨_, _, Makes.liftExcept outcome start⟩

theorem planning (lookup : Catalog.Lookup Failure α) : OnlyCalls kind (planning lookup) :=
  of_silent fun _ => ⟨_, _, Makes.planning rfl⟩

theorem record {call : Call} (hcall : kind call) (answer : History → Except ConnectionError α) :
    OnlyCalls kind (record call answer) :=
  fun start => ⟨_, _, _, Makes.record call answer start, by simpa using hcall⟩

/-- What follows a step need only keep to the kind for the values that the step can give. -/
theorem bind (hfirst : OnlyCalls kind first)
    (hnext : ∀ start value finish, Succeeds first start value finish →
      OnlyCalls kind (next value)) : OnlyCalls kind (first >>= next) := by
  intro start
  obtain ⟨outcome, calls, middle, hmakes, hcalls⟩ := hfirst start
  cases outcome with
  | error failure => exact ⟨_, calls, middle, hmakes.bind_error, hcalls⟩
  | ok value =>
      obtain ⟨result, later, finish, hlater, hkind⟩ := hnext start value middle hmakes.run middle
      refine ⟨result, calls ++ later, finish, hmakes.bind hlater, fun call hcall => ?_⟩
      rcases List.mem_append.mp hcall with hcall | hcall
      · exact hcalls call hcall
      · exact hkind call hcall

theorem mapM {step : α → Run β} : ∀ {entries : List α},
    (∀ entry ∈ entries, OnlyCalls kind (step entry)) → OnlyCalls kind (entries.mapM step)
  | [], _ => by
      rw [List.mapM_nil]
      exact pure []
  | entry :: rest, hentries => by
      rw [List.mapM_cons]
      obtain ⟨hentry, hrest⟩ := List.forall_mem_cons.mp hentries
      exact hentry.bind fun _ _ _ _ => (mapM hrest).bind fun _ _ _ _ => pure _

/-- A transaction adds the calls that begin and end it. -/
theorem transaction {connection : Connection} (hbegin : kind .begin) (hcommit : kind .commit)
    (hrollback : kind .rollback) (hstep : OnlyCalls kind step) :
    OnlyCalls kind (transaction connection step) := by
  intro start
  cases hanswer : connection.begin start.history with
  | error problem =>
      exact ⟨_, _, _, Makes.transaction_unbegun hanswer, by simpa using hbegin⟩
  | ok =>
      obtain ⟨outcome, calls, middle, hmakes, hcalls⟩ := hstep (start.called .begin)
      cases outcome with
      | error failure =>
          refine ⟨_, _, _, Makes.transaction_rolledBack hanswer hmakes, ?_⟩
          simpa [hbegin, hrollback, or_imp, forall_and] using hcalls
      | ok value =>
          refine ⟨_, _, _, Makes.transaction_committed hanswer hmakes, ?_⟩
          simpa [hbegin, hcommit, or_imp, forall_and] using hcalls

end OnlyCalls

end TreeQuery.Session
