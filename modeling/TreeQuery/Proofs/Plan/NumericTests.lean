import TreeQuery.Proofs.Plan.PlannedText

/-!
# Truth tests without truth values

Where there is no `IS TRUE`, an operand is compared with the number of the truth
value.  The comparison is unknown of a null operand, where the test says true or
false.  A predicate written so never says more than the other: it is unknown, or it
says the same.  Whether it is still true of the same rows depends on the tests under
an odd number of negations, `IS NOT` counted as one, since only these say of a null
operand what could make the whole true.
-/

namespace TreeQuery.Sql

namespace Expr

/-- The expression with a comparison in place of every test for a truth value. -/
def numeric : Expr → Expr
  | binary operator left right => binary operator left.numeric right.numeric
  | not operand => not operand.numeric
  | is operand .true negated => binary .eq operand (literal (.bool (!negated)))
  | is operand .false negated => binary .eq operand (literal (.bool negated))
  | other => other

/-- The operands that are tested for a truth value. -/
def tested : Expr → List Expr
  | binary _ left right => left.tested ++ right.tested
  | not operand => operand.tested
  | is operand .true _ | is operand .false _ => [operand]
  | _ => []

/-- The operands that are tested for a truth value under an odd number of negations,
or under an even number when the expression itself is negated. -/
def testedNegated (negated : Bool) : Expr → List Expr
  | binary _ left right => left.testedNegated negated ++ right.testedNegated negated
  | not operand => operand.testedNegated (!negated)
  | is operand .true inverted | is operand .false inverted =>
      if inverted = negated then [] else [operand]
  | _ => []

end Expr

/-! ## The comparison is what is written -/

section Written

variable {expression : Expr}

theorem Scalar.numeric_eq (hscalar : Scalar expression) : expression.numeric = expression := by
  cases hscalar <;> rfl

theorem Scalar.tokens_tsql (hscalar : Scalar expression) :
    expression.tokens .tsql = expression.tokens .sqlite := by
  cases hscalar <;> simp [Expr.tokens]

theorem listTokens_tsql (constants : List Literal) :
    Expr.listTokens .tsql (constants.map .literal) =
      Expr.listTokens .sqlite (constants.map .literal) := by
  induction constants with
  | nil => simp [Expr.listTokens]
  | cons first others ih => simp [Expr.listTokens, Expr.tokens, ih]

theorem Condition.numeric (hcondition : Condition expression) : Condition expression.numeric := by
  induction hcondition with
  | compare hoperator hleft hright =>
      rw [Expr.numeric, hleft.numeric_eq, hright.numeric_eq]
      exact .compare hoperator hleft hright
  | is hoperand truth negated =>
      cases truth with
      | null => exact .is hoperand .null negated
      | true => exact .compare (by simp) hoperand (.literal _)
      | false => exact .compare (by simp) hoperand (.literal _)
  | like hoperand hpattern negated caseless => exact .like hoperand hpattern negated caseless
  | member hoperand constants negated => exact .member hoperand constants negated
  | and _ _ ihleft ihright => exact .and ihleft ihright
  | or _ _ ihleft ihright => exact .or ihleft ihright
  | not _ ih => exact .not ih

/-- A comparison binds stronger than `AND`, as a test does. -/
theorem Condition.numeric_bindsWeakerThan (hcondition : Condition expression)
    {parent : BinaryOperator} (hparent : parent = .and ∨ parent = .or) :
    expression.numeric.bindsWeakerThan parent = expression.bindsWeakerThan parent := by
  cases hcondition with
  | is _ truth _ => rcases hparent with rfl | rfl <;> cases truth <;> rfl
  | _ => rfl

/-- Without `IS TRUE`, a condition is written as its comparisons are. -/
theorem Condition.tokens_tsql (hcondition : Condition expression) :
    expression.tokens .tsql = expression.numeric.tokens .sqlite := by
  induction hcondition with
  | compare hoperator hleft hright =>
      rw [Expr.numeric, hleft.numeric_eq, hright.numeric_eq, Expr.tokens, Expr.tokens,
        hleft.tokens_tsql, hright.tokens_tsql]
  | is hoperand truth negated =>
      have hoperandTokens := hoperand.tokens_tsql
      cases truth with
      | null => simp [Expr.numeric, Expr.tokens, hoperandTokens, Expr.truthTest]
      | true =>
          rw [Expr.numeric, Expr.tokens, Expr.tokens, Expr.tokens, hoperandTokens,
            hoperand.bindsWeakerThan_eq_false, (Scalar.literal _).bindsWeakerThan_eq_false]
          simp [Expr.truthTest, Expr.grouped, BinaryOperator.token, Dialect.hasTruthPredicate]
      | false =>
          rw [Expr.numeric, Expr.tokens, Expr.tokens, Expr.tokens, hoperandTokens,
            hoperand.bindsWeakerThan_eq_false, (Scalar.literal _).bindsWeakerThan_eq_false]
          simp [Expr.truthTest, Expr.grouped, BinaryOperator.token, Dialect.hasTruthPredicate]
  | like hoperand hpattern negated caseless =>
      simp [Expr.numeric, Expr.tokens, hoperand.tokens_tsql, hpattern.tokens_tsql,
        Dialect.hasCaselessLike]
  | member hoperand constants negated =>
      cases constants with
      | nil => simp [Expr.numeric, Expr.tokens]
      | cons first others =>
          have hconstants := listTokens_tsql (first :: others)
          rw [List.map_cons] at hconstants
          simp [Expr.numeric, Expr.tokens, hoperand.tokens_tsql, hconstants]
  | and hleft hright ihleft ihright =>
      have hleftBinds := hleft.numeric_bindsWeakerThan (.inl rfl)
      have hrightBinds := hright.numeric_bindsWeakerThan (.inl rfl)
      simp only [Expr.and, Expr.numeric, Expr.tokens, ihleft, ihright, hleftBinds, hrightBinds]
  | or hleft hright ihleft ihright =>
      have hleftBinds := hleft.numeric_bindsWeakerThan (.inr rfl)
      have hrightBinds := hright.numeric_bindsWeakerThan (.inr rfl)
      simp only [Expr.or, Expr.numeric, Expr.tokens, ihleft, ihright, hleftBinds, hrightBinds]
  | not hoperand ih =>
      simp only [Expr.numeric, Expr.tokens, ih, hoperand.isAtomic_eq_false,
        hoperand.numeric.isAtomic_eq_false]

end Written

/-! ## What the comparison says -/

/-- An engine that holds truth values as their numbers: the two differ, and only one of
them counts as true. -/
structure Engine.KnowsTruth (engine : Engine) : Prop where
  holds_bool (value : Bool) : engine.holds (engine.constant (.bool value)) = value
  equal_bool (left right : Bool) :
    engine.equal (engine.constant (.bool left)) (engine.constant (.bool right)) = (left == right)

/-- A value that is null or one of the two truth values. -/
def Engine.IsTruthValue (engine : Engine) (value : Option engine.Datum) : Prop :=
  value = none ∨ ∃ truth, value = some (engine.constant (.bool truth))

namespace Verdict

/-- A verdict that is unknown, or the same as another. -/
def AtMost (verdict other : Verdict) : Prop :=
  verdict = none ∨ verdict = other

/-- Two verdicts of which both or none are a given truth value. -/
def Agree (sense : Bool) (verdict other : Verdict) : Prop :=
  verdict = some sense ↔ other = some sense

section

variable {left right leftOther rightOther verdict other : Verdict} {sense : Bool}

theorem AtMost.refl : verdict.AtMost verdict :=
  .inr rfl

theorem AtMost.not (hverdict : verdict.AtMost other) : verdict.not.AtMost other.not := by
  rcases hverdict with rfl | rfl
  · exact .inl rfl
  · exact .inr rfl

theorem AtMost.and (hleft : left.AtMost leftOther) (hright : right.AtMost rightOther) :
    (left.and right).AtMost (leftOther.and rightOther) := by
  rcases hleft with rfl | rfl <;> rcases hright with rfl | rfl
  · exact .inl rfl
  · rcases right with _ | _ | _ <;> rcases leftOther with _ | _ | _ <;> simp [AtMost, Verdict.and]
  · rcases left with _ | _ | _ <;> rcases rightOther with _ | _ | _ <;> simp [AtMost, Verdict.and]
  · exact .refl

theorem AtMost.or (hleft : left.AtMost leftOther) (hright : right.AtMost rightOther) :
    (left.or right).AtMost (leftOther.or rightOther) := by
  rcases hleft with rfl | rfl <;> rcases hright with rfl | rfl
  · exact .inl rfl
  · rcases right with _ | _ | _ <;> rcases leftOther with _ | _ | _ <;> simp [AtMost, Verdict.or]
  · rcases left with _ | _ | _ <;> rcases rightOther with _ | _ | _ <;> simp [AtMost, Verdict.or]
  · exact .refl

theorem and_eq_some :
    left.and right = some sense ↔
      if sense then left = some true ∧ right = some true
      else left = some false ∨ right = some false := by
  rcases left with _ | _ | _ <;> rcases right with _ | _ | _ <;> cases sense <;>
    simp [Verdict.and]

theorem or_eq_some :
    left.or right = some sense ↔
      if sense then left = some true ∨ right = some true
      else left = some false ∧ right = some false := by
  rcases left with _ | _ | _ <;> rcases right with _ | _ | _ <;> cases sense <;>
    simp [Verdict.or]

theorem not_eq_some : verdict.not = some sense ↔ verdict = some (!sense) := by
  rcases verdict with _ | _ | _ <;> cases sense <;> simp [Verdict.not]

theorem Agree.not (hverdict : Agree (!sense) verdict other) :
    Agree sense verdict.not other.not := by
  rw [Agree, not_eq_some, not_eq_some]
  exact hverdict

theorem Agree.and (hleft : Agree sense left leftOther) (hright : Agree sense right rightOther) :
    Agree sense (left.and right) (leftOther.and rightOther) := by
  rw [Agree, and_eq_some, and_eq_some]
  cases sense with
  | true => exact and_congr hleft hright
  | false => exact or_congr hleft hright

theorem Agree.or (hleft : Agree sense left leftOther) (hright : Agree sense right rightOther) :
    Agree sense (left.or right) (leftOther.or rightOther) := by
  rw [Agree, or_eq_some, or_eq_some]
  cases sense with
  | true => exact or_congr hleft hright
  | false => exact and_congr hleft hright

end

end Verdict

section Says

variable {engine : Engine} {assignment : Assignment engine} {operand expression : Expr}

/-- Of null the comparison says nothing. -/
theorem verdict_numeric_is_of_null {truth : Truth} (htruth : truth ≠ .null) (negated : Bool)
    (hnull : operand.value engine assignment = none) :
    (Expr.is operand truth negated).numeric.verdict engine assignment = none := by
  cases truth with
  | null => exact absurd rfl htruth
  | true => simp [Expr.numeric, Expr.verdict, hnull, Engine.test]
  | false => simp [Expr.numeric, Expr.verdict, hnull, Engine.test]

/-- Of a truth value the comparison says what the test says. -/
theorem verdict_numeric_is_of_some (hengine : engine.KnowsTruth) {held : Bool}
    (hheld : operand.value engine assignment = some (engine.constant (.bool held)))
    (truth : Truth) (negated : Bool) :
    (Expr.is operand truth negated).numeric.verdict engine assignment =
      (Expr.is operand truth negated).verdict engine assignment := by
  cases truth with
  | null => rfl
  | true =>
      cases negated <;> cases held <;>
        simp [Expr.numeric, Expr.verdict, Expr.value, hheld, Engine.test, Engine.literal,
          Engine.compares, Engine.isTruth, hengine.equal_bool, hengine.holds_bool,
          Verdict.negatedIf, Verdict.not]
  | false =>
      cases negated <;> cases held <;>
        simp [Expr.numeric, Expr.verdict, Expr.value, hheld, Engine.test, Engine.literal,
          Engine.compares, Engine.isTruth, hengine.equal_bool, hengine.holds_bool,
          Verdict.negatedIf, Verdict.not]

/-- A test of null for a truth value is not unknown: it says whether it is negated. -/
theorem verdict_is_of_null {truth : Truth} (htruth : truth ≠ .null) (negated : Bool)
    (hnull : operand.value engine assignment = none) :
    (Expr.is operand truth negated).verdict engine assignment = some negated := by
  cases truth with
  | null => exact absurd rfl htruth
  | true =>
      cases negated <;> simp [Expr.verdict, hnull, Engine.isTruth, Verdict.negatedIf, Verdict.not]
  | false =>
      cases negated <;> simp [Expr.verdict, hnull, Engine.isTruth, Verdict.negatedIf, Verdict.not]

/-- A comparison in place of a test never says more. -/
theorem Condition.numeric_atMost (hengine : engine.KnowsTruth) (hcondition : Condition expression)
    (htested : ∀ operand ∈ expression.tested,
      engine.IsTruthValue (operand.value engine assignment)) :
    (expression.numeric.verdict engine assignment).AtMost
      (expression.verdict engine assignment) := by
  induction hcondition with
  | compare hoperator hleft hright =>
      rw [Expr.numeric, hleft.numeric_eq, hright.numeric_eq]
      exact .refl
  | @is operand hoperand truth negated =>
      by_cases htruth : truth = .null
      · subst htruth
        exact .refl
      · have hmem : operand ∈ (Expr.is operand truth negated).tested := by
          cases truth <;> simp_all [Expr.tested]
        rcases htested operand hmem with hnull | ⟨held, hheld⟩
        · exact .inl (verdict_numeric_is_of_null htruth negated hnull)
        · exact .inr (verdict_numeric_is_of_some hengine hheld truth negated)
  | like hoperand hpattern negated caseless => exact .refl
  | member hoperand constants negated => exact .refl
  | and hleft hright ihleft ihright =>
      obtain ⟨hfirst, hsecond⟩ := List.forall_mem_append.mp htested
      exact (ihleft hfirst).and (ihright hsecond)
  | or hleft hright ihleft ihright =>
      obtain ⟨hfirst, hsecond⟩ := List.forall_mem_append.mp htested
      exact (ihleft hfirst).or (ihright hsecond)
  | not hoperand ih => exact (ih htested).not

/-- While no operand is null that is tested under an odd number of negations, comparisons
and tests are true together; under an even number, they are false together. -/
theorem Condition.numeric_agree (hengine : engine.KnowsTruth) (hcondition : Condition expression)
    (htested : ∀ operand ∈ expression.tested,
      engine.IsTruthValue (operand.value engine assignment)) :
    ∀ negated : Bool,
      (∀ operand ∈ expression.testedNegated negated, operand.value engine assignment ≠ none) →
        Verdict.Agree (!negated) (expression.numeric.verdict engine assignment)
          (expression.verdict engine assignment) := by
  induction hcondition with
  | compare hoperator hleft hright =>
      rw [Expr.numeric, hleft.numeric_eq, hright.numeric_eq]
      exact fun _ _ => .rfl
  | @is operand hoperand truth inverted =>
      intro negated hpresent
      by_cases htruth : truth = .null
      · subst htruth
        exact .rfl
      · have hmem : operand ∈ (Expr.is operand truth inverted).tested := by
          cases truth <;> simp_all [Expr.tested]
        rcases htested operand hmem with hnull | ⟨held, hheld⟩
        · -- the test of null is not the verdict that counts here
          have hinverted : inverted = negated := by
            by_contra hne
            have hmember : operand ∈ (Expr.is operand truth inverted).testedNegated negated := by
              cases truth <;> simp_all [Expr.testedNegated]
            exact hpresent operand hmember hnull
          rw [Verdict.Agree, verdict_numeric_is_of_null htruth inverted hnull,
            verdict_is_of_null htruth inverted hnull, hinverted]
          cases negated <;> simp
        · rw [verdict_numeric_is_of_some hengine hheld]
          exact .rfl
  | like hoperand hpattern negated caseless => exact fun _ _ => .rfl
  | member hoperand constants negated => exact fun _ _ => .rfl
  | and hleft hright ihleft ihright =>
      intro negated hpresent
      obtain ⟨hfirst, hsecond⟩ := List.forall_mem_append.mp htested
      obtain ⟨hleftPresent, hrightPresent⟩ := List.forall_mem_append.mp hpresent
      exact (ihleft hfirst negated hleftPresent).and (ihright hsecond negated hrightPresent)
  | or hleft hright ihleft ihright =>
      intro negated hpresent
      obtain ⟨hfirst, hsecond⟩ := List.forall_mem_append.mp htested
      obtain ⟨hleftPresent, hrightPresent⟩ := List.forall_mem_append.mp hpresent
      exact (ihleft hfirst negated hleftPresent).or (ihright hsecond negated hrightPresent)
  | not hoperand ih => exact fun negated hpresent => (ih htested (!negated) hpresent).not

end Says

/-! ## What a dialect writes -/

/-- What a dialect writes: comparisons in place of the tests that it does not know. -/
def Expr.asWritten (dialect : Dialect) (expression : Expr) : Expr :=
  if dialect.hasTruthPredicate then expression else expression.numeric

/-- In every dialect a condition is read back as what the dialect writes. -/
theorem Condition.reads_back {expression : Expr} (hcondition : Condition expression)
    (dialect : Dialect) :
    ∃ read, Reading.predicate? (expression.tokens dialect) = some read ∧
      read.SaysSame (expression.asWritten dialect) := by
  cases dialect with
  | tsql =>
      rw [hcondition.tokens_tsql]
      exact Reading.predicate?_tokens rfl hcondition.numeric
  | _ => exact Reading.predicate?_tokens rfl hcondition

end TreeQuery.Sql

/-! ## Planned filters -/

namespace TreeQuery.Plan.Predicate

open Catalog (Memo Schema)
open Sql (Assignment Engine)

variable {schema : Schema} {path : Path} {memo after : Memo} {expression : Expression}
  {planned : Sql.Expr}

/-- A filter written for T-SQL is true of no more rows than written for Postgres, on rows whose
tested columns hold truth values or null: what it says is unknown or the same.  It is true of the
same rows as long as no column tested under an odd number of negations is null. -/
theorem tsql_true_iff (hplanned : Succeeds (ofExpression schema path expression) memo
      (some planned) after) :
    ∃ postgres tsql : Sql.Expr,
      Sql.Reading.predicate? (planned.tokens .postgres) = some postgres ∧
      Sql.Reading.predicate? (planned.tokens .tsql) = some tsql ∧
      ∀ (engine : Engine) (assignment : Assignment engine), engine.KnowsTruth →
        (∀ operand ∈ planned.tested, engine.IsTruthValue (operand.value engine assignment)) →
        (tsql.verdict engine assignment).AtMost (postgres.verdict engine assignment) ∧
          ((∀ operand ∈ planned.testedNegated false, operand.value engine assignment ≠ none) →
            (tsql.verdict engine assignment = some true ↔
              postgres.verdict engine assignment = some true)) := by
  have hcondition := ofExpression_condition hplanned planned rfl
  have hwords : Sql.Dialect.postgres.hasTruthPredicate = true := rfl
  have hnumbers : Sql.Dialect.sqlite.hasTruthPredicate = true := rfl
  obtain ⟨postgres, hpostgres, hpostgresSays⟩ :=
    Sql.Reading.predicate?_tokens hwords hcondition
  obtain ⟨tsql, htsql, htsqlSays⟩ :=
    Sql.Reading.predicate?_tokens hnumbers hcondition.numeric
  refine ⟨postgres, tsql, hpostgres, ?_, fun engine assignment hengine htested => ?_⟩
  · rw [hcondition.tokens_tsql]
    exact htsql
  · rw [htsqlSays engine assignment, hpostgresSays engine assignment]
    exact ⟨hcondition.numeric_atMost hengine htested,
      hcondition.numeric_agree hengine htested false⟩

/-- A schema of one table with a column of truth values. -/
def lendingShelf : Schema where
  tables := [{ name := "book", columns := ["id", "title", "archived"] }]
  graph := { tables := ["book"] }
  junctions := []

/-- The books that are not archived. -/
def notArchived : Expression :=
  [.clause ⟨"archived", .not (.is (.bool true))⟩]

/-- A row in which every column has one value. -/
def constantRow (value : Option Sql.Literal) : Assignment (default : Engine) :=
  fun _ _ => value

theorem knowsTruth_default : (default : Engine).KnowsTruth :=
  ⟨by decide, by decide⟩

theorem tsql_true_iff_lendingShelf :
    ∃ planned after postgres tsql,
      Succeeds (ofExpression lendingShelf [{ name := "book" }] notArchived) {} (some planned)
        after ∧
      Sql.Reading.predicate? (planned.tokens .postgres) = some postgres ∧
      Sql.Reading.predicate? (planned.tokens .tsql) = some tsql ∧
      planned.testedNegated false = [.column (some "book") "archived"] ∧
      (tsql.verdict default (constantRow (some (.bool false))) = some true ↔
        postgres.verdict default (constantRow (some (.bool false))) = some true) := by
  have hplanned : Succeeds (ofExpression lendingShelf [{ name := "book" }] notArchived) {}
      (some (.is (.column (some "book") "archived") .true true)) _ := rfl
  obtain ⟨postgres, tsql, hpostgres, htsql, hverdicts⟩ := tsql_true_iff hplanned
  refine ⟨_, _, postgres, tsql, hplanned, hpostgres, htsql, rfl, ?_⟩
  refine (hverdicts default (constantRow (some (.bool false))) knowsTruth_default ?_).2 ?_
  · intro operand hoperand
    obtain rfl := List.mem_singleton.mp hoperand
    exact .inr ⟨false, rfl⟩
  · intro operand hoperand
    obtain rfl := List.mem_singleton.mp hoperand
    exact Option.some_ne_none _

/-- Of a null column, `IS NOT TRUE` is true and the comparison in its place is unknown. -/
theorem tsql_misses_null :
    ∃ planned after postgres tsql,
      Succeeds (ofExpression lendingShelf [{ name := "book" }] notArchived) {} (some planned)
        after ∧
      Sql.Reading.predicate? (planned.tokens .postgres) = some postgres ∧
      Sql.Reading.predicate? (planned.tokens .tsql) = some tsql ∧
      (default : Engine).KnowsTruth ∧
      (∀ operand ∈ planned.tested, (default : Engine).IsTruthValue
        (operand.value default (constantRow none))) ∧
      postgres.verdict default (constantRow none) = some true ∧
      tsql.verdict default (constantRow none) = none := by
  refine ⟨.is (.column (some "book") "archived") .true true, _,
    .is (.column (some "book") "archived") .true true,
    .binary .eq (.column (some "book") "archived") (.literal (.bool false)),
    rfl, rfl, rfl, knowsTruth_default, ?_, rfl, rfl⟩
  intro operand hoperand
  obtain rfl := List.mem_singleton.mp hoperand
  exact .inl rfl

end TreeQuery.Plan.Predicate
