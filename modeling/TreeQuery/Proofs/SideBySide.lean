import TreeQuery.Proofs.Runs

/-!
# Two runs side by side

Two steps are run from states of their own.  They end alike when both give values,
which are related, or both fail in the same way, and when the states they end in are
related as well.  Steps composed of steps that end alike end alike.
-/

namespace TreeQuery

variable {ε ε' σ τ α β γ δ : Type}

/-- Two values that are related, or twice the same failure. -/
inductive SameOutcome (related : α → β → Prop) : Except ε α → Except ε β → Prop
  | ok {value : α} {other : β} (hrelated : related value other) :
      SameOutcome related (.ok value) (.ok other)
  | error (failure : ε) : SameOutcome related (.error failure) (.error failure)

namespace SameOutcome

theorem error_iff {related : α → β → Prop} {outcome : Except ε α} {other : Except ε β}
    (hsame : SameOutcome related outcome other) (failure : ε) :
    outcome = .error failure ↔ other = .error failure := by
  cases hsame with
  | ok _ => exact ⟨nofun, nofun⟩
  | error _ => simp

theorem refl {related : α → α → Prop} (hrefl : ∀ value, related value value)
    (outcome : Except ε α) : SameOutcome related outcome outcome := by
  cases outcome with
  | ok value => exact .ok (hrefl value)
  | error failure => exact .error failure

theorem mapError {related : α → β → Prop} {outcome : Except ε α} {other : Except ε β}
    (hsame : SameOutcome related outcome other) (reword : ε → ε') :
    SameOutcome related (outcome.mapError reword) (other.mapError reword) := by
  cases hsame with
  | ok hrelated => exact .ok hrelated
  | error failure => exact .error (reword failure)

end SameOutcome

/-- Run from two states, two steps have the same outcome up to related values, and end in
related states. -/
structure EndsAlike (states : σ → τ → Prop) (related : α → β → Prop)
    (step : ExceptT ε (StateM σ) α) (other : ExceptT ε (StateM τ) β) (start : σ) (begun : τ) :
    Prop where
  outcome : SameOutcome related (Id.run (step.run.run start)).1 (Id.run (other.run.run begun)).1
  state : states (Id.run (step.run.run start)).2 (Id.run (other.run.run begun)).2

namespace EndsAlike

variable {states : σ → τ → Prop} {related : α → β → Prop} {later : γ → δ → Prop}
  {start : σ} {begun : τ}

theorem pure {value : α} {other : β} (hrelated : related value other)
    (hstates : states start begun) :
    EndsAlike states related (pure value : ExceptT ε (StateM σ) α) (pure other) start begun :=
  ⟨.ok hrelated, hstates⟩

theorem throw (failure : ε) (hstates : states start begun) :
    EndsAlike states related (throw failure : ExceptT ε (StateM σ) α)
      (throw failure : ExceptT ε (StateM τ) β) start begun :=
  ⟨.error failure, hstates⟩

theorem liftExcept {outcome : Except ε α} {other : Except ε β}
    (hsame : SameOutcome related outcome other) (hstates : states start begun) :
    EndsAlike states related (liftExcept outcome : ExceptT ε (StateM σ) α)
      (liftExcept other : ExceptT ε (StateM τ) β) start begun := by
  cases hsame with
  | ok hrelated => exact .pure hrelated hstates
  | error failure => exact .throw failure hstates

/-- Any step ends like itself when it is run from the same state. -/
theorem refl {related : α → α → Prop} (hrefl : ∀ value, related value value)
    (step : ExceptT ε (StateM σ) α) (start : σ) :
    EndsAlike (· = ·) related step step start start :=
  ⟨.refl hrefl _, rfl⟩

theorem bind {first : ExceptT ε (StateM σ) α} {second : ExceptT ε (StateM τ) β}
    {next : α → ExceptT ε (StateM σ) γ} {other : β → ExceptT ε (StateM τ) δ}
    (hfirst : EndsAlike states related first second start begun)
    (hnext : ∀ value twin middle paused, Succeeds first start value middle →
      Succeeds second begun twin paused → related value twin → states middle paused →
        EndsAlike states later (next value) (other twin) middle paused) :
    EndsAlike states later (first >>= next) (second >>= other) start begun := by
  obtain ⟨houtcome, hstate⟩ := hfirst
  cases hrun : Id.run (first.run.run start) with
  | mk outcome middle =>
      cases htwin : Id.run (second.run.run begun) with
      | mk twinOutcome paused =>
          rw [hrun, htwin] at houtcome hstate
          cases houtcome with
          | error failure =>
              constructor
              · rw [run_bind, run_bind, hrun, htwin]
                exact .error failure
              · rw [run_bind, run_bind, hrun, htwin]
                exact hstate
          | ok hrelated =>
              have hrest := hnext _ _ _ _ hrun htwin hrelated hstate
              constructor
              · rw [run_bind, run_bind, hrun, htwin]
                exact hrest.outcome
              · rw [run_bind, run_bind, hrun, htwin]
                exact hrest.state

theorem map {change : α → γ} {other : β → δ} {step : ExceptT ε (StateM σ) α}
    {twin : ExceptT ε (StateM τ) β} (halike : EndsAlike states related step twin start begun)
    (hlater : ∀ value twin, related value twin → later (change value) (other twin)) :
    EndsAlike states later (change <$> step) (other <$> twin) start begun := by
  rw [map_eq_pure_bind, map_eq_pure_bind]
  exact halike.bind fun _ _ _ _ _ _ hrelated hstates => .pure (hlater _ _ hrelated) hstates

/-- Rewording a failure keeps runs alike. -/
theorem adapt {reword : ε → ε'} {step : ExceptT ε (StateM σ) α} {twin : ExceptT ε (StateM τ) β}
    (halike : EndsAlike states related step twin start begun) :
    EndsAlike states related (step.adapt reword) (twin.adapt reword) start begun :=
  ⟨halike.outcome.mapError reword, halike.state⟩

/-- A step that both runs begin with, from the same state, may be left out of sight. -/
theorem bind_same {first : ExceptT ε (StateM σ) α}
    {next : α → ExceptT ε (StateM σ) γ} {other : α → ExceptT ε (StateM σ) δ} {start : σ}
    (hnext : ∀ value middle, EndsAlike (· = ·) later (next value) (other value) middle middle) :
    EndsAlike (· = ·) later (first >>= next) (first >>= other) start start := by
  have hfirst : EndsAlike (· = ·) (· = ·) first first start start := refl (fun _ => rfl) first start
  refine hfirst.bind ?_
  rintro value _ middle _ - - rfl rfl
  exact hnext value middle

end EndsAlike

end TreeQuery
