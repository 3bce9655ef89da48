import TreeQuery.Proofs.Plan.NumericTests

/-!
# Negated operators

Some operators have a negative form of their own, and all others are put under `NOT`.
Either way a negated operator fails when the operator fails, asks for nothing when the
operator asks for nothing, and otherwise says the opposite, which is unknown where the
operator is.
-/

namespace TreeQuery.Plan.Predicate

open Sql (Assignment Engine Scalar Verdict)

/-- Two predicates that say the opposite, unknown of the same rows.  The comparisons that stand
for tests do, too, of rows where what is tested is a truth value or null. -/
structure Opposes (negated plain : Sql.Expr) : Prop where
  verdict (engine : Engine) (assignment : Assignment engine) :
    negated.verdict engine assignment = Verdict.not (plain.verdict engine assignment)
  numeric (engine : Engine) (assignment : Assignment engine) (hengine : engine.KnowsTruth)
    (htested : ∀ operand ∈ plain.tested, engine.IsTruthValue (operand.value engine assignment)) :
    negated.numeric.verdict engine assignment =
      Verdict.not (plain.numeric.verdict engine assignment)

/-- An outcome and the outcome of the negation: they fail alike, are nothing alike, or are
predicates that say the opposite. -/
inductive Negates : Except Failure (Option Sql.Expr) → Except Failure (Option Sql.Expr) → Prop
  | failure (failure : Failure) : Negates (.error failure) (.error failure)
  | nothing : Negates (.ok none) (.ok none)
  | predicate {negated plain : Sql.Expr} (hopposes : Opposes negated plain) :
      Negates (.ok (some negated)) (.ok (some plain))

/-- Opposite predicates are opposite as a dialect writes them. -/
theorem Opposes.written {negated plain : Sql.Expr} (hopposes : Opposes negated plain)
    {dialect : Sql.Dialect} {engine : Engine} {assignment : Assignment engine}
    (htested : dialect.hasTruthPredicate = false → engine.KnowsTruth ∧
      ∀ operand ∈ plain.tested, engine.IsTruthValue (operand.value engine assignment)) :
    (negated.asWritten dialect).verdict engine assignment =
      Verdict.not ((plain.asWritten dialect).verdict engine assignment) := by
  unfold Sql.Expr.asWritten
  split
  · exact hopposes.verdict engine assignment
  · next hwords =>
      obtain ⟨hengine, hvalues⟩ := htested (Bool.eq_false_iff.mpr hwords)
      exact hopposes.numeric engine assignment hengine hvalues

variable {name : String} {column : Sql.Expr}

/-- `NOT` in front of a predicate is its negation. -/
theorem negates_not (outcome : Except Failure (Option Sql.Expr)) :
    Negates (outcome.map (Option.map Sql.Expr.not)) outcome := by
  rcases outcome with failure | _ | plain
  · exact .failure failure
  · exact .nothing
  · exact .predicate ⟨fun _ _ => rfl, fun _ _ _ _ => rfl⟩

/-- A negated test is the opposite of the test, and so are the comparisons in their place. -/
theorem opposes_is (truth : Sql.Truth) :
    Opposes (.is column truth true) (.is column truth false) where
  verdict _ _ := rfl
  numeric engine assignment hengine htested := by
    by_cases htruth : truth = .null
    · rw [htruth]
      rfl
    · have hcolumn : column ∈ (Sql.Expr.is column truth false).tested := by
        cases truth with
        | null => exact absurd rfl htruth
        | true => exact List.mem_cons_self
        | false => exact List.mem_cons_self
      rcases htested column hcolumn with hnull | ⟨held, hheld⟩
      · rw [Sql.verdict_numeric_is_of_null htruth true hnull,
          Sql.verdict_numeric_is_of_null htruth false hnull]
        rfl
      · rw [Sql.verdict_numeric_is_of_some hengine hheld,
          Sql.verdict_numeric_is_of_some hengine hheld]
        rfl

theorem negates_truthTest (value : Json) :
    Negates ((truthTest name column value true).map some)
      ((truthTest name column value false).map some) := by
  unfold truthTest
  cases truth? value with
  | none => exact .failure _
  | some truth => exact .predicate (opposes_is truth)

/-- Unequal is the opposite of equal, also where the comparison is with null. -/
theorem opposes_equation (value : Json) :
    Opposes (comparison column .ne value) (comparison column .eq value) := by
  cases value with
  | null => exact opposes_is .null
  | _ => exact ⟨fun engine _ => engine.test_not engine.equal _ _,
      fun engine _ _ _ => engine.test_not engine.equal _ _⟩

theorem negates_operator (operator : Operator) :
    Negates (ofOperator name column (.not operator)) (ofOperator name column operator) := by
  have hwrapped : directNegation? name column operator = none →
      Negates (ofOperator name column (.not operator)) (ofOperator name column operator) := by
    intro hnone
    rw [ofOperator, hnone]
    exact negates_not _
  cases operator with
  | compare relation value =>
      cases relation with
      | eq => exact .predicate (opposes_equation value)
      | _ => exact hwrapped rfl
  | is value => exact negates_truthTest value
  | like pattern caseSensitive => exact .predicate ⟨fun _ _ => rfl, fun _ _ _ _ => rfl⟩
  | set values => exact .predicate ⟨fun _ _ => rfl, fun _ _ _ _ => rfl⟩
  | not inner => exact hwrapped rfl
  | range lower upper => exact hwrapped rfl
  | sort direction => exact hwrapped rfl

/-- A negated operator fails exactly as the operator does, and asks for nothing exactly when the
operator does.  Otherwise its predicate says the opposite of the operator's, unknown where that
is.  So do the two once they are written in any dialect and read back; where `IS TRUE` is written
as a comparison, of rows whose tested columns hold truth values or null. -/
theorem ofOperator_negated (name : String) (column : Sql.Expr) (operator : Operator) :
    (∀ failure, ofOperator name column (.not operator) = .error failure ↔
        ofOperator name column operator = .error failure) ∧
      (ofOperator name column (.not operator) = .ok none ↔
        ofOperator name column operator = .ok none) ∧
      ∀ predicate, ofOperator name column operator = .ok (some predicate) →
        ∃ negated, ofOperator name column (.not operator) = .ok (some negated) ∧
          (∀ (engine : Engine) (assignment : Assignment engine),
            negated.verdict engine assignment =
              Verdict.not (predicate.verdict engine assignment)) ∧
          ∀ dialect, Scalar column →
            ∃ read readNegated, Sql.Reading.predicate? (predicate.tokens dialect) = some read ∧
              Sql.Reading.predicate? (negated.tokens dialect) = some readNegated ∧
              ∀ (engine : Engine) (assignment : Assignment engine),
                (dialect.hasTruthPredicate = false → engine.KnowsTruth ∧
                  ∀ operand ∈ predicate.tested,
                    engine.IsTruthValue (operand.value engine assignment)) →
                readNegated.verdict engine assignment =
                  Verdict.not (read.verdict engine assignment) := by
  have hnegates : Negates (ofOperator name column (.not operator))
      (ofOperator name column operator) := negates_operator operator
  -- the outcomes are named, so that the cases of the relation can be taken
  generalize hplain : ofOperator name column operator = plain at hnegates
  generalize hnegated : ofOperator name column (.not operator) = negated at hnegates
  cases hnegates with
  | failure failure => simp
  | nothing => simp
  | @predicate negated plain hopposes =>
      refine ⟨by simp, by simp, ?_⟩
      intro predicate hpredicate
      obtain rfl : plain = predicate := by simpa using hpredicate
      refine ⟨negated, rfl, hopposes.verdict, ?_⟩
      intro dialect hcolumn
      obtain ⟨read, hread, hreadSame⟩ :=
        ((means_ofOperator hcolumn hplain).condition plain rfl).reads_back dialect
      obtain ⟨readNegated, hreadNegated, hnegatedSame⟩ :=
        ((means_ofOperator hcolumn hnegated).condition negated rfl).reads_back dialect
      refine ⟨read, readNegated, hread, hreadNegated, fun engine assignment htested => ?_⟩
      calc readNegated.verdict engine assignment
          = (negated.asWritten dialect).verdict engine assignment := hnegatedSame engine assignment
        _ = Verdict.not ((plain.asWritten dialect).verdict engine assignment) :=
          hopposes.written htested
        _ = Verdict.not (read.verdict engine assignment) := by rw [hreadSame]

/-- Not (not among false and null, and not true). -/
def doublyNegated : Operator :=
  .not (.range (some (.not (.set [.bool false, .null]))) (some (.not (.is (.bool true)))))

/-- The outcome of an operator on the column of truth values. -/
def archivedOutcome (operator : Operator) : Except Failure (Option Sql.Expr) :=
  ofOperator "archived" (.column (some "book") "archived") operator

theorem ofOperator_negated_archived :
    ∃ predicate negated, archivedOutcome doublyNegated = .ok (some predicate) ∧
      archivedOutcome (.not doublyNegated) = .ok (some negated) ∧
      ∃ read readNegated, Sql.Reading.predicate? (predicate.tokens .tsql) = some read ∧
        Sql.Reading.predicate? (negated.tokens .tsql) = some readNegated ∧
        ∀ value ∈ [none, some (.bool true), some (.bool false)],
          readNegated.verdict default (constantRow value) =
            Verdict.not (read.verdict default (constantRow value)) := by
  obtain ⟨predicate, hpredicate, htested⟩ : ∃ predicate,
      archivedOutcome doublyNegated = .ok (some predicate) ∧
        predicate.tested = [.column (some "book") "archived"] := ⟨_, rfl, rfl⟩
  obtain ⟨negated, hnegated, -, hwritten⟩ :=
    (ofOperator_negated "archived" (.column (some "book") "archived") doublyNegated).2.2
      predicate hpredicate
  obtain ⟨read, readNegated, hread, hreadNegated, hopposes⟩ :=
    hwritten .tsql (.column "book" "archived")
  refine ⟨predicate, negated, hpredicate, hnegated, read, readNegated, hread, hreadNegated, ?_⟩
  intro value hvalue
  refine hopposes default (constantRow value) fun _ => ⟨knowsTruth_default, ?_⟩
  rw [htested, List.forall_mem_singleton]
  simp only [List.mem_cons, List.not_mem_nil, or_false] at hvalue
  rcases hvalue with rfl | rfl | rfl
  · exact .inl rfl
  · exact .inr ⟨true, rfl⟩
  · exact .inr ⟨false, rfl⟩

end TreeQuery.Plan.Predicate
