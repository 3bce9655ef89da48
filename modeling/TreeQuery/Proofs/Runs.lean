import Mathlib

/-!
# Successful and failing runs

A step may fail and carries state.  A successful run of composed steps is taken
apart here into successful runs of its parts, and the ways in which it can fail are
those of its parts.
-/

namespace TreeQuery

variable {ε ε' σ α β : Type}

theorem map_ok_iff {change : α → β} {outcome : Except ε α} {result : β} :
    outcome.map change = .ok result ↔ ∃ value, outcome = .ok value ∧ change value = result := by
  cases outcome <;> simp [Except.map]

theorem bind_ok_iff {next : α → Except ε β} {outcome : Except ε α} {result : β} :
    outcome >>= next = .ok result ↔ ∃ value, outcome = .ok value ∧ next value = .ok result := by
  cases outcome <;> simp [bind, Except.bind]

theorem map_error_iff {change : α → β} {outcome : Except ε α} {failure : ε} :
    outcome.map change = .error failure ↔ outcome = .error failure := by
  cases outcome <;> simp [Except.map]

theorem bind_error_iff {next : α → Except ε β} {outcome : Except ε α} {failure : ε} :
    outcome >>= next = .error failure ↔
      outcome = .error failure ∨ ∃ value, outcome = .ok value ∧ next value = .error failure := by
  cases outcome <;> simp [bind, Except.bind]

/-- Composed steps run one after another, unless the first one fails. -/
theorem run_bind (first : ExceptT ε (StateM σ) α) (next : α → ExceptT ε (StateM σ) β)
    (start : σ) :
    Id.run ((first >>= next).run.run start) =
      match Id.run (first.run.run start) with
      | (.ok value, middle) => Id.run ((next value).run.run middle)
      | (.error failure, middle) => (.error failure, middle) := by
  rw [ExceptT.run_bind, StateT.run_bind, Id.run_bind]
  rcases Id.run (first.run.run start) with ⟨_ | value, middle⟩ <;> rfl

/-- Run from one state, the step gives a value and ends in another state. -/
def Succeeds (step : ExceptT ε (StateM σ) α) (start : σ) (value : α) (finish : σ) : Prop :=
  Id.run (step.run.run start) = (.ok value, finish)

namespace Succeeds

/-- A step that is seen to give a value succeeds. -/
theorem of_toOption {step : ExceptT ε (StateM σ) α} {start : σ} {see : α → β} {result : β}
    (hrun : (Id.run (step.run.run start)).1.toOption.map see = some result) :
    ∃ value finish, Succeeds step start value finish ∧ see value = result := by
  obtain ⟨outcome, finish, hstep⟩ :
      ∃ outcome finish, Id.run (step.run.run start) = (outcome, finish) := ⟨_, _, rfl⟩
  rw [hstep] at hrun
  cases outcome with
  | error failure => cases hrun
  | ok value => exact ⟨value, finish, hstep, Option.some.inj hrun⟩

/-- A step gives one value. -/
theorem value_eq {step : ExceptT ε (StateM σ) α} {start finish other : σ} {value result : α}
    (hrun : Succeeds step start value finish) (hother : Succeeds step start result other) :
    value = result :=
  Except.ok.inj (congrArg Prod.fst (hrun.symm.trans hother))

theorem pure_iff {value result : α} {start finish : σ} :
    Succeeds (pure value : ExceptT ε (StateM σ) α) start result finish ↔
      value = result ∧ start = finish := by
  change (Except.ok value, start) = (Except.ok result, finish) ↔ _
  simp

theorem not_throw {failure : ε} {result : α} {start finish : σ} :
    ¬ Succeeds (throw failure : ExceptT ε (StateM σ) α) start result finish := by
  change ¬ (Except.error failure, start) = (Except.ok result, finish)
  simp

theorem bind_iff {first : ExceptT ε (StateM σ) α} {next : α → ExceptT ε (StateM σ) β}
    {start finish : σ} {result : β} :
    Succeeds (first >>= next) start result finish ↔
      ∃ value middle, Succeeds first start value middle ∧
        Succeeds (next value) middle result finish := by
  unfold Succeeds
  rw [run_bind]
  rcases Id.run (first.run.run start) with ⟨failure | value, middle⟩ <;> simp

theorem liftExcept_iff {outcome : Except ε α} {result : α} {start finish : σ} :
    Succeeds (liftExcept outcome : ExceptT ε (StateM σ) α) start result finish ↔
      outcome = .ok result ∧ start = finish := by
  cases outcome with
  | error failure => simp [liftExcept, not_throw]
  | ok value => simp [liftExcept, pure_iff]

/-- Rewording a failure leaves success alone. -/
theorem adapt_iff {reword : ε → ε'} {step : ExceptT ε (StateM σ) α} {result : α}
    {start finish : σ} :
    Succeeds (step.adapt reword) start result finish ↔ Succeeds step start result finish := by
  change ((Id.run (step.run.run start)).1.mapError reword, (Id.run (step.run.run start)).2) =
    (.ok result, finish) ↔ Id.run (step.run.run start) = (.ok result, finish)
  rcases Id.run (step.run.run start) with ⟨_ | value, middle⟩ <;> simp [Except.mapError]

theorem map_iff {change : α → β} {step : ExceptT ε (StateM σ) α} {result : β}
    {start finish : σ} :
    Succeeds (change <$> step) start result finish ↔
      ∃ value, Succeeds step start value finish ∧ change value = result := by
  rw [map_eq_pure_bind, bind_iff]
  simp only [pure_iff]
  constructor
  · rintro ⟨value, middle, hstep, hresult, rfl⟩
    exact ⟨value, hstep, hresult⟩
  · rintro ⟨value, hstep, hresult⟩
    exact ⟨value, finish, hstep, hresult, rfl⟩

/-- A step without failure gives its value. -/
theorem lift_iff {step : StateM σ α} {result : α} {start finish : σ} :
    Succeeds (liftM step : ExceptT ε (StateM σ) α) start result finish ↔
      Id.run (step.run start) = (result, finish) := by
  change (Except.ok (Id.run (step.run start)).1, (Id.run (step.run start)).2) =
    (Except.ok result, finish) ↔ _
  rcases Id.run (step.run start) with ⟨value, middle⟩
  simp

theorem get_iff {start value finish : σ} :
    Succeeds (get : ExceptT ε (StateM σ) σ) start value finish ↔
      start = value ∧ start = finish := by
  change (Except.ok start, start) = (Except.ok value, finish) ↔ _
  simp

theorem set_iff {state start finish : σ} {result : PUnit} :
    Succeeds (set state : ExceptT ε (StateM σ) PUnit) start result finish ↔ state = finish := by
  change (Except.ok (), state) = (Except.ok result, finish) ↔ _
  simp

theorem modify_iff {change : σ → σ} {start finish : σ} {result : PUnit} :
    Succeeds (modify change : ExceptT ε (StateM σ) PUnit) start result finish ↔
      change start = finish := by
  change (Except.ok (), change start) = (Except.ok result, finish) ↔ _
  simp

/-- Steps taken one after another all succeed.  What every one of them keeps holds from
the start to each step, and from each step to the end. -/
theorem mapM_forall₂ {follows : σ → σ → Prop} (hrefl : ∀ state, follows state state)
    (htrans : ∀ {first second third}, follows first second → follows second third →
      follows first third)
    {step : α → ExceptT ε (StateM σ) β} {entries : List α}
    {values : List β} {start finish : σ}
    (hstep : ∀ entry ∈ entries, ∀ middle value later, follows start middle →
      Succeeds (step entry) middle value later → follows middle later)
    (hrun : Succeeds (entries.mapM step) start values finish) :
    follows start finish ∧ List.Forall₂ (fun entry value => ∃ middle later,
      follows start middle ∧ Succeeds (step entry) middle value later ∧ follows later finish)
        entries values := by
  induction entries generalizing start values with
  | nil =>
      rw [List.mapM_nil] at hrun
      obtain ⟨rfl, rfl⟩ := pure_iff.mp hrun
      exact ⟨hrefl start, .nil⟩
  | cons entry rest ih =>
      rw [List.mapM_cons] at hrun
      obtain ⟨value, middle, hentry, hrun⟩ := bind_iff.mp hrun
      obtain ⟨others, last, hrest, hrun⟩ := bind_iff.mp hrun
      obtain ⟨rfl, rfl⟩ := pure_iff.mp hrun
      have hfirst := hstep entry List.mem_cons_self start value middle (hrefl start) hentry
      obtain ⟨hlater, hothers⟩ := ih (fun other hother state found after hfollows =>
        hstep other (List.mem_cons_of_mem _ hother) state found after
          (htrans hfirst hfollows)) hrest
      refine ⟨htrans hfirst hlater, .cons ⟨start, middle, hrefl start, hentry, hlater⟩ ?_⟩
      refine hothers.imp ?_
      rintro other found ⟨state, after, hfollows, hother, hfinish⟩
      exact ⟨state, after, htrans hfirst hfollows, hother, hfinish⟩

end Succeeds

/-- Run from a state, one step gives the outcome of another and ends in the same state. -/
def RunsLike (step other : ExceptT ε (StateM σ) α) (start : σ) : Prop :=
  Id.run (step.run.run start) = Id.run (other.run.run start)

namespace RunsLike

theorem refl (step : ExceptT ε (StateM σ) α) (start : σ) : RunsLike step step start := rfl

theorem bind {first other : ExceptT ε (StateM σ) α} {next later : α → ExceptT ε (StateM σ) β}
    {start : σ} (hfirst : RunsLike first other start)
    (hnext : ∀ value middle, Succeeds other start value middle →
      RunsLike (next value) (later value) middle) :
    RunsLike (first >>= next) (other >>= later) start := by
  unfold RunsLike
  rw [run_bind, run_bind, hfirst]
  cases hrun : Id.run (other.run.run start) with
  | mk outcome middle =>
      cases outcome with
      | error failure => rfl
      | ok value => exact hnext value middle hrun

/-- Steps taken one after another run alike when each of them does, from every state that
the ones before may lead to. -/
theorem mapM {follows : σ → σ → Prop} (hrefl : ∀ state, follows state state)
    (htrans : ∀ {first second third}, follows first second → follows second third →
      follows first third)
    {step other : α → ExceptT ε (StateM σ) β} {entries : List α} {start : σ}
    (hkeeps : ∀ entry ∈ entries, ∀ middle value later, follows start middle →
      Succeeds (other entry) middle value later → follows middle later)
    (hsame : ∀ entry ∈ entries, ∀ middle, follows start middle →
      RunsLike (step entry) (other entry) middle) :
    RunsLike (entries.mapM step) (entries.mapM other) start := by
  induction entries generalizing start with
  | nil => exact .refl _ start
  | cons entry rest ih =>
      rw [List.mapM_cons, List.mapM_cons]
      refine bind (hsame entry List.mem_cons_self start (hrefl start)) fun value middle hrun => ?_
      have hfirst := hkeeps entry List.mem_cons_self start value middle (hrefl start) hrun
      refine bind (ih (fun later hlater state value after hfollows => ?_)
        fun later hlater state hfollows => ?_) fun _ _ _ => .refl _ _
      · exact hkeeps later (List.mem_cons_of_mem _ hlater) state value after
          (htrans hfirst hfollows)
      · exact hsame later (List.mem_cons_of_mem _ hlater) state (htrans hfirst hfollows)

end RunsLike

/-- Run from one state, the step fails. -/
def Fails (step : ExceptT ε (StateM σ) α) (start : σ) (failure : ε) : Prop :=
  (Id.run (step.run.run start)).1 = .error failure

namespace Fails

variable {first : ExceptT ε (StateM σ) α} {next : α → ExceptT ε (StateM σ) β} {start middle : σ}
  {failure : ε} {value : α}

theorem throw (failure : ε) (start : σ) :
    Fails (throw failure : ExceptT ε (StateM σ) α) start failure :=
  rfl

theorem liftExcept {outcome : Except ε α} (houtcome : outcome = .error failure) :
    Fails (liftExcept outcome : ExceptT ε (StateM σ) α) start failure := by
  subst houtcome
  rfl

theorem not_succeeds (hfails : Fails first start failure) :
    ¬ Succeeds first start value middle := by
  intro hrun
  have hboth : Except.error failure = Except.ok value := hfails.symm.trans (congrArg Prod.fst hrun)
  cases hboth

theorem bind (hfirst : Fails first start failure) : Fails (first >>= next) start failure := by
  unfold Fails at hfirst ⊢
  rw [run_bind]
  rcases hrun : Id.run (first.run.run start) with ⟨_ | value, middle⟩
  · rw [hrun] at hfirst
    exact congrArg Except.error (Except.error.inj hfirst)
  · rw [hrun] at hfirst
    cases hfirst

theorem bind_next (hfirst : Succeeds first start value middle)
    (hnext : Fails (next value) middle failure) : Fails (first >>= next) start failure := by
  unfold Fails
  rw [run_bind, show Id.run (first.run.run start) = (.ok value, middle) from hfirst]
  exact hnext

end Fails

/-- Whatever state it is run from, the step fails in one kind of way only. -/
def FailsOnly (kind : ε → Prop) (step : ExceptT ε (StateM σ) α) : Prop :=
  ∀ start failure, (Id.run (step.run.run start)).1 = .error failure → kind failure

namespace FailsOnly

variable {kind : ε → Prop}

theorem pure (value : α) : FailsOnly kind (pure value : ExceptT ε (StateM σ) α) :=
  fun _ _ hfailure => by cases hfailure

theorem throw {failure : ε} (hkind : kind failure) :
    FailsOnly kind (throw failure : ExceptT ε (StateM σ) α) := by
  intro start other hother
  obtain rfl := Except.error.inj hother
  exact hkind

theorem liftExcept {outcome : Except ε α}
    (hkind : ∀ failure, outcome = .error failure → kind failure) :
    FailsOnly kind (liftExcept outcome : ExceptT ε (StateM σ) α) := by
  cases outcome with
  | error failure => exact throw (hkind failure rfl)
  | ok value => exact pure value

theorem bind {first : ExceptT ε (StateM σ) α} {next : α → ExceptT ε (StateM σ) β}
    (hfirst : FailsOnly kind first) (hnext : ∀ value, FailsOnly kind (next value)) :
    FailsOnly kind (first >>= next) := by
  intro start failure hfailure
  rw [run_bind] at hfailure
  cases hrun : Id.run (first.run.run start) with
  | mk outcome middle =>
      rw [hrun] at hfailure
      cases outcome with
      | error problem =>
          obtain rfl := Except.error.inj hfailure
          apply hfirst start problem
          rw [hrun]
      | ok value => exact hnext value middle failure hfailure

theorem map {change : α → β} {step : ExceptT ε (StateM σ) α} (hstep : FailsOnly kind step) :
    FailsOnly kind (change <$> step) := by
  rw [map_eq_pure_bind]
  exact hstep.bind fun _ => pure _

/-- Reworded failures are of the kind that the rewording gives. -/
theorem adapt {reword : ε' → ε} (step : ExceptT ε' (StateM σ) α)
    (hkind : ∀ failure, kind (reword failure)) : FailsOnly kind (step.adapt reword) := by
  intro start failure hfailure
  change (Id.run (step.run.run start)).1.mapError reword = .error failure at hfailure
  cases houtcome : (Id.run (step.run.run start)).1 with
  | error problem =>
      rw [houtcome] at hfailure
      obtain rfl := Except.error.inj hfailure
      exact hkind problem
  | ok value =>
      rw [houtcome] at hfailure
      cases hfailure

theorem forM {step : α → ExceptT ε (StateM σ) PUnit} {entries : List α}
    (hstep : ∀ entry, FailsOnly kind (step entry)) : FailsOnly kind (entries.forM step) := by
  induction entries with
  | nil => exact pure _
  | cons entry rest ih => exact (hstep entry).bind fun _ => ih

theorem mono {other : ε → Prop} {step : ExceptT ε (StateM σ) α} (hstep : FailsOnly kind step)
    (hkind : ∀ failure, kind failure → other failure) : FailsOnly other step :=
  fun start failure hfailure => hkind failure (hstep start failure hfailure)

end FailsOnly

end TreeQuery
