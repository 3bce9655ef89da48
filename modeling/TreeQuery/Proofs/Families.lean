import TreeQuery.Proofs.Runs

/-!
# Families of runs

Steps that differ in one value make up a family.  Its runs are uniform when they all
fail alike, or all give values of which again only that one differs.  Steps composed of
uniform families are uniform.  The lists of a family have a gap where one entry differs.
-/

namespace TreeQuery

variable {ι ε ε' σ α β : Type}

/-! ## Lists with a gap -/

/-- Lists that are the same but for one entry, which stands at one place in all of them. -/
def Gap (entry : ι → α) (lists : ι → List α) : Prop :=
  ∃ before behind, lists = fun i => before ++ entry i :: behind

namespace Gap

variable {entry : ι → α} {lists : ι → List α}

theorem intro (before behind : List α) : Gap entry fun i => before ++ entry i :: behind :=
  ⟨before, behind, rfl⟩

theorem append_left (hgap : Gap entry lists) (front : List α) :
    Gap entry fun i => front ++ lists i := by
  obtain ⟨before, behind, rfl⟩ := hgap
  exact ⟨front ++ before, behind, funext fun _ => (List.append_assoc ..).symm⟩

theorem append_right (hgap : Gap entry lists) (rest : List α) :
    Gap entry fun i => lists i ++ rest := by
  obtain ⟨before, behind, rfl⟩ := hgap
  exact ⟨before, behind ++ rest, funext fun _ => List.append_assoc ..⟩

theorem cons (hgap : Gap entry lists) (first : α) : Gap entry fun i => first :: lists i :=
  hgap.append_left [first]

theorem map (hgap : Gap entry lists) (change : α → β) :
    Gap (fun i => change (entry i)) fun i => (lists i).map change := by
  obtain ⟨before, behind, rfl⟩ := hgap
  exact ⟨before.map change, behind.map change, funext fun _ => List.map_append⟩

section Nested

variable {inner : ι → β} {parts : ι → List β} {nested : ι → List (List β)}

theorem intercalate_cons (separator first : List β) (rest : List (List β)) :
    separator.intercalate (first :: rest) =
      first ++ rest.flatMap fun part => separator ++ part := by
  induction rest generalizing first with
  | nil => simp
  | cons next rest ih =>
      rw [List.intercalate_cons_cons, ih, List.flatMap_cons]
      simp

/-- A part with a gap leaves a gap in the parts put together. -/
theorem intercalate (hgap : Gap parts nested) (hparts : Gap inner parts) (separator : List β) :
    Gap inner fun i => separator.intercalate (nested i) := by
  obtain ⟨before, behind, rfl⟩ := hgap
  cases before with
  | nil =>
      simp only [List.nil_append, intercalate_cons]
      exact hparts.append_right _
  | cons first rest =>
      simp only [List.cons_append, intercalate_cons, List.flatMap_append, List.flatMap_cons]
      exact (((hparts.append_left _).append_right _).append_left _).append_left _

end Nested

end Gap

/-! ## Outcomes -/

/-- Outcomes that are all the same failure, or all values, which make up a family of a
kind. -/
inductive UniformOutcome (kind : (ι → α) → Prop) : (ι → Except ε α) → Prop
  | ok {values : ι → α} (hkind : kind values) : UniformOutcome kind fun i => .ok (values i)
  | error (failure : ε) : UniformOutcome kind fun _ => .error failure

namespace UniformOutcome

variable {kind : (ι → α) → Prop} {later : (ι → β) → Prop} {outcomes : ι → Except ε α}

theorem bind {next : ι → α → Except ε β} (houtcomes : UniformOutcome kind outcomes)
    (hnext : ∀ values, kind values → UniformOutcome later fun i => next i (values i)) :
    UniformOutcome later fun i => outcomes i >>= next i := by
  cases houtcomes with
  | ok hkind => exact hnext _ hkind
  | error failure => exact .error failure

theorem map {change : α → β} (houtcomes : UniformOutcome kind outcomes)
    (hlater : ∀ values, kind values → later fun i => change (values i)) :
    UniformOutcome later fun i => (outcomes i).map change := by
  cases houtcomes with
  | ok hkind => exact .ok (hlater _ hkind)
  | error failure => exact .error failure

/-- All begin with the same outcome. -/
theorem bind_same {first : Except ε α} {next : ι → α → Except ε β}
    (hnext : ∀ value, UniformOutcome later fun i => next i value) :
    UniformOutcome later fun i => first >>= next i := by
  cases first with
  | ok value => exact hnext value
  | error failure => exact .error failure

end UniformOutcome

/-! ## Runs -/

/-- Run from one state, all steps of a family fail alike, or they all give values, which make up
a family of a kind; they end in one state. -/
inductive Uniform (kind : (ι → α) → Prop) (steps : ι → ExceptT ε (StateM σ) α) (start : σ) : Prop
  | gives (values : ι → α) (finish : σ) (hkind : kind values)
      (hrun : ∀ i, Succeeds (steps i) start (values i) finish)
  | fails (failure : ε) (finish : σ)
      (hrun : ∀ i, Id.run ((steps i).run.run start) = (.error failure, finish))

namespace Uniform

variable {kind : (ι → α) → Prop} {later : (ι → β) → Prop} {start : σ}
  {steps : ι → ExceptT ε (StateM σ) α}

theorem pure {values : ι → α} (hkind : kind values) :
    Uniform kind (fun i => (pure (values i) : ExceptT ε (StateM σ) α)) start :=
  .gives values start hkind fun _ => rfl

theorem throw (failure : ε) :
    Uniform kind (fun _ : ι => (throw failure : ExceptT ε (StateM σ) α)) start :=
  .fails failure start fun _ => rfl

theorem liftExcept {outcomes : ι → Except ε α} (houtcomes : UniformOutcome kind outcomes) :
    Uniform kind (fun i => (liftExcept (outcomes i) : ExceptT ε (StateM σ) α)) start := by
  cases houtcomes with
  | ok hkind => exact pure hkind
  | error failure => exact throw failure

theorem bind {next : ι → α → ExceptT ε (StateM σ) β} (hsteps : Uniform kind steps start)
    (hnext : ∀ values middle, kind values →
      Uniform later (fun i => next i (values i)) middle) :
    Uniform later (fun i => steps i >>= next i) start := by
  cases hsteps with
  | gives values middle hkind hrun =>
      cases hnext values middle hkind with
      | gives results finish hresults hlast =>
          exact .gives results finish hresults fun i =>
            Succeeds.bind_iff.mpr ⟨values i, middle, hrun i, hlast i⟩
      | fails failure finish hlast =>
          refine .fails failure finish fun i => ?_
          rw [run_bind, show Id.run ((steps i).run.run start) = _ from hrun i]
          exact hlast i
  | fails failure finish hrun =>
      refine .fails failure finish fun i => ?_
      rw [run_bind, hrun]

/-- All steps begin in the same way. -/
theorem bind_same {first : ExceptT ε (StateM σ) α} {next : ι → α → ExceptT ε (StateM σ) β}
    (hnext : ∀ value middle, Succeeds first start value middle →
      Uniform later (fun i => next i value) middle) :
    Uniform later (fun i => first >>= next i) start := by
  obtain ⟨outcome, middle, hrun⟩ :
      ∃ outcome middle, Id.run (first.run.run start) = (outcome, middle) := ⟨_, _, rfl⟩
  cases outcome with
  | ok value =>
      cases hnext value middle hrun with
      | gives results finish hresults hlast =>
          exact .gives results finish hresults fun i =>
            Succeeds.bind_iff.mpr ⟨value, middle, hrun, hlast i⟩
      | fails failure finish hlast =>
          refine .fails failure finish fun i => ?_
          rw [run_bind, hrun]
          exact hlast i
  | error failure =>
      refine .fails failure middle fun i => ?_
      rw [run_bind, hrun]

/-- The same steps are uniform when what they give, if they do, makes up a family of the kind. -/
theorem same {step : ExceptT ε (StateM σ) α}
    (hkind : ∀ value finish, Succeeds step start value finish → kind fun _ => value) :
    Uniform kind (fun _ : ι => step) start := by
  rw [← bind_pure step]
  exact bind_same fun value middle hstep => pure (hkind value middle hstep)

theorem mono {larger : (ι → α) → Prop} (hsteps : Uniform kind steps start)
    (hlarger : ∀ values, kind values → larger values) : Uniform larger steps start := by
  cases hsteps with
  | gives values finish hkind hrun => exact .gives values finish (hlarger values hkind) hrun
  | fails failure finish hrun => exact .fails failure finish hrun

theorem map {change : α → β} (hsteps : Uniform kind steps start)
    (hlater : ∀ values, kind values → later fun i => change (values i)) :
    Uniform later (fun i => change <$> steps i) start := by
  simp only [map_eq_pure_bind]
  exact hsteps.bind fun values _ hkind => .pure (hlater values hkind)

end Uniform

end TreeQuery
