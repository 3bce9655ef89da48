import TreeQuery.Proofs.Plan.Negation

/-!
# Membership and equality

Membership in a list is put as one test, and equality with null as a test for null.  The two
part where the list holds null: a null column equals null but is not known to be in the list,
and no value is known to be outside of it.  Everywhere else membership selects what the
equations select, one by one, and its negation what the negated equations select.
-/

namespace TreeQuery.Sql

namespace Verdict

/-- The disjunction of verdicts.  Without any it is false. -/
def any (verdicts : List Verdict) : Verdict :=
  verdicts.foldr or (some false)

/-- The conjunction of verdicts.  Without any it is true. -/
def all (verdicts : List Verdict) : Verdict :=
  verdicts.foldr and (some true)

theorem any_eq_true_iff {verdicts : List Verdict} :
    any verdicts = some true ↔ ∃ verdict ∈ verdicts, verdict = some true := by
  induction verdicts with
  | nil => simp [any]
  | cons first rest ih =>
      change or first (any rest) = some true ↔ _
      rw [or_eq_some, if_pos rfl, ih, List.exists_mem_cons_iff]

theorem any_eq_false_iff {verdicts : List Verdict} :
    any verdicts = some false ↔ ∀ verdict ∈ verdicts, verdict = some false := by
  induction verdicts with
  | nil => simp [any]
  | cons first rest ih =>
      change or first (any rest) = some false ↔ _
      rw [or_eq_some, if_neg Bool.false_ne_true, ih, List.forall_mem_cons]

theorem all_eq_true_iff {verdicts : List Verdict} :
    all verdicts = some true ↔ ∀ verdict ∈ verdicts, verdict = some true := by
  induction verdicts with
  | nil => simp [all]
  | cons first rest ih =>
      change and first (all rest) = some true ↔ _
      rw [and_eq_some, if_pos rfl, ih, List.forall_mem_cons]

end Verdict

theorem Engine.among_eq_any (engine : Engine) (value : Option engine.Datum)
    (others : List (Option engine.Datum)) :
    engine.among value others = Verdict.any (others.map (engine.test engine.equal value)) := by
  rw [Verdict.any, List.foldr_map]
  rfl

/-- Whether a value equals a listed one. -/
def Engine.equals (engine : Engine) (value : Option engine.Datum) (listed : Json) : Verdict :=
  engine.test engine.equal value (engine.literal (.ofJson listed))

theorem Engine.equals_null (engine : Engine) (value : Option engine.Datum) :
    engine.equals value .null = none := by
  cases value <;> rfl

theorem Engine.null_equals (engine : Engine) (listed : Json) :
    engine.equals none listed = none :=
  rfl

end TreeQuery.Sql

namespace TreeQuery.Plan.Predicate

open Sql (Assignment Condition Engine Scalar Verdict)

variable {name : String} {column : Sql.Expr} {engine : Engine} {assignment : Assignment engine}

theorem verdict_member (values : List Json) (negated : Bool) :
    (member column values negated).verdict engine assignment =
      Verdict.negatedIf negated
        (Verdict.any (values.map (engine.equals (column.value engine assignment)))) := by
  rw [member, Sql.Expr.verdict, engine.among_eq_any, List.map_map, List.map_map]
  rfl

/-- A value is in a list when it equals a listed value. -/
theorem member_selects_iff {values : List Json} :
    (member column values false).verdict engine assignment = some true ↔
      ∃ value ∈ values, engine.equals (column.value engine assignment) value = some true := by
  rw [verdict_member]
  change Verdict.any _ = some true ↔ _
  simp only [Verdict.any_eq_true_iff, List.mem_map, exists_exists_and_eq_and]

/-- A value is outside of a list when it is known to differ from every listed value. -/
theorem not_member_selects_iff {values : List Json} :
    (member column values true).verdict engine assignment = some true ↔
      ∀ value ∈ values, engine.equals (column.value engine assignment) value = some false := by
  rw [verdict_member]
  change Verdict.not (Verdict.any _) = some true ↔ _
  rw [Verdict.not_eq_some, Bool.not_true, Verdict.any_eq_false_iff, List.forall_mem_map]

/-- Equality with null asks whether the column is null, and any other equality compares. -/
theorem equation_eq_some_iff {value : Json} {sense : Bool} :
    (comparison column .eq value).verdict engine assignment = some sense ↔
      value = .null ∧ (column.value engine assignment).isNone = sense ∨
        engine.equals (column.value engine assignment) value = some sense := by
  cases value with
  | null =>
      change some (column.value engine assignment).isNone = some sense ↔ _
      simp [engine.equals_null]
  | _ =>
      change engine.equals (column.value engine assignment) _ = some sense ↔ _
      simp

theorem equation_selects_iff {value : Json} :
    (comparison column .eq value).verdict engine assignment = some true ↔
      value = .null ∧ column.value engine assignment = none ∨
        engine.equals (column.value engine assignment) value = some true := by
  rw [equation_eq_some_iff, Option.isNone_iff_eq_none]

theorem inequation_selects_iff {value : Json} :
    (comparison column .ne value).verdict engine assignment = some true ↔
      value = .null ∧ column.value engine assignment ≠ none ∨
        engine.equals (column.value engine assignment) value = some false := by
  rw [(opposes_equation value).verdict, Verdict.not_eq_some, Bool.not_true,
    equation_eq_some_iff, Option.isNone_eq_false_iff, Option.isSome_iff_ne_none]

section Selections

variable {values : List Json}

/-- Membership and equality part at a null column with null in the list, and nowhere else. -/
theorem member_parts_iff :
    ¬ ((member column values false).verdict engine assignment = some true ↔
        ∃ value ∈ values, (comparison column .eq value).verdict engine assignment = some true) ↔
      .null ∈ values ∧ column.value engine assignment = none := by
  simp only [member_selects_iff, equation_selects_iff]
  constructor
  · intro hparts
    by_contra hagree
    apply hparts
    constructor
    · rintro ⟨value, hvalue, hequal⟩
      exact ⟨value, hvalue, .inr hequal⟩
    · rintro ⟨value, hvalue, ⟨rfl, hnull⟩ | hequal⟩
      · exact absurd ⟨hvalue, hnull⟩ hagree
      · exact ⟨value, hvalue, hequal⟩
  · rintro ⟨hlisted, hnull⟩ hsame
    obtain ⟨value, -, hequal⟩ := hsame.mpr ⟨.null, hlisted, .inl ⟨rfl, hnull⟩⟩
    rw [hnull, engine.null_equals] at hequal
    cases hequal

/-- With null in the list nothing is outside of it, though the negated equations hold of a
column that is not null and differs from all other listed values. -/
theorem not_member_parts_iff :
    ¬ ((member column values true).verdict engine assignment = some true ↔
        ∀ value ∈ values, (comparison column .ne value).verdict engine assignment = some true) ↔
      .null ∈ values ∧ column.value engine assignment ≠ none ∧
        ∀ value ∈ values, value ≠ .null →
          engine.equals (column.value engine assignment) value = some false := by
  simp only [not_member_selects_iff, inequation_selects_iff]
  constructor
  · intro hparts
    by_contra hagree
    apply hparts
    constructor
    · intro houtside value hvalue
      exact .inr (houtside value hvalue)
    · intro hdiffer value hvalue
      rcases hdiffer value hvalue with ⟨rfl, hpresent⟩ | hdiffers
      · refine absurd ⟨hvalue, hpresent, fun other hother hne => ?_⟩ hagree
        exact (hdiffer other hother).resolve_left fun hnull => hne hnull.1
      · exact hdiffers
  · rintro ⟨hlisted, hpresent, hdiffer⟩ hsame
    have houtside := hsame.mpr fun value hvalue => by
      by_cases hnull : value = .null
      · exact .inl ⟨hnull, hpresent⟩
      · exact .inr (hdiffer value hvalue hnull)
    have hnull := houtside .null hlisted
    rw [engine.equals_null] at hnull
    cases hnull

end Selections

/-- Operators that all become predicates become the list of these. -/
theorem mapM_ofOperator {form : Json → Operator} {predicate : Json → Sql.Expr}
    (hform : ∀ value, ofOperator name column (form value) = .ok (some (predicate value)))
    (values : List Json) :
    values.mapM (fun value => ofOperator name column (form value)) =
      .ok ((values.map predicate).map some) := by
  simp only [hform, List.map_map]
  exact List.mapM_pure

/-- A condition that tests for no truth value says the same when it is read back from any
dialect. -/
theorem reads_back_of_numeric {predicate : Sql.Expr} (hcondition : Condition predicate)
    (hnumeric : predicate.numeric = predicate) (dialect : Sql.Dialect) :
    ∃ read, Sql.Reading.predicate? (predicate.tokens dialect) = some read ∧
      read.SaysSame predicate := by
  have hread := hcondition.reads_back dialect
  rwa [Sql.Expr.asWritten, hnumeric, ite_self] at hread

theorem numeric_comparison (hcolumn : Scalar column) (relation : Comparison) (value : Json) :
    (comparison column relation value).numeric = comparison column relation value := by
  unfold comparison
  split
  · rfl
  · rfl
  · rw [Sql.Expr.numeric, hcolumn.numeric_eq]
    rfl

/-- Membership in a list and the equations with the listed values are planned, and select the same
unless the column is null and null is listed.  Their negations select the same unless null is
listed and the column is neither null nor equal to another listed value.  All of them, written in
any dialect and read back, say the same. -/
theorem membership_parts_iff (name : String) (column : Sql.Expr) (values : List Json) :
    ∃ (within without : Sql.Expr) (equations inequations : List Sql.Expr),
      ofOperator name column (.set values) = .ok (some within) ∧
      ofOperator name column (.not (.set values)) = .ok (some without) ∧
      values.mapM (fun value => ofOperator name column (.compare .eq value)) =
        .ok (equations.map some) ∧
      values.mapM (fun value => ofOperator name column (.not (.compare .eq value))) =
        .ok (inequations.map some) ∧
      (∀ (engine : Engine) (assignment : Assignment engine),
        (¬ (within.verdict engine assignment = some true ↔ Verdict.any (equations.map fun equation =>
              equation.verdict engine assignment) = some true) ↔
            .null ∈ values ∧ column.value engine assignment = none) ∧
          (¬ (without.verdict engine assignment = some true ↔
              Verdict.all (inequations.map fun inequation =>
                inequation.verdict engine assignment) = some true) ↔
            .null ∈ values ∧ column.value engine assignment ≠ none ∧
              ∀ value ∈ values, value ≠ .null →
                engine.equals (column.value engine assignment) value = some false)) ∧
      ∀ dialect, Scalar column → ∀ predicate ∈ within :: without :: (equations ++ inequations),
        ∃ read, Sql.Reading.predicate? (predicate.tokens dialect) = some read ∧
          read.SaysSame predicate := by
  refine ⟨member column values false, member column values true,
    values.map (comparison column .eq), values.map (comparison column .ne), rfl, rfl,
    mapM_ofOperator (fun _ => rfl) values, mapM_ofOperator (fun _ => rfl) values,
    fun engine assignment => ⟨?_, ?_⟩, fun dialect hcolumn predicate hpredicate => ?_⟩
  · rw [Verdict.any_eq_true_iff]
    simp only [List.mem_map, exists_exists_and_eq_and]
    exact member_parts_iff
  · rw [Verdict.all_eq_true_iff]
    simp only [List.forall_mem_map]
    exact not_member_parts_iff
  · have hcomparison (relation : Comparison) (value : Json) :
        ∃ read, Sql.Reading.predicate? ((comparison column relation value).tokens dialect) =
          some read ∧ read.SaysSame (comparison column relation value) :=
      reads_back_of_numeric ((means_comparison hcolumn relation value).condition _ rfl)
        (numeric_comparison hcolumn relation value) dialect
    have hmember (negated : Bool) :
        ∃ read, Sql.Reading.predicate? ((member column values negated).tokens dialect) =
          some read ∧ read.SaysSame (member column values negated) :=
      reads_back_of_numeric ((means_member hcolumn values negated).condition _ rfl) rfl dialect
    simp only [List.mem_cons, List.mem_append, List.mem_map] at hpredicate
    rcases hpredicate with rfl | rfl | ⟨value, -, rfl⟩ | ⟨value, -, rfl⟩
    · exact hmember false
    · exact hmember true
    · exact hcomparison .eq value
    · exact hcomparison .ne value

/-- The outcome of an operator on the years of the shelf. -/
def yearOutcome (operator : Operator) : Except Failure (Option Sql.Expr) :=
  ofOperator "year" (.column (some "book") "year") operator

/-- A year that is 1990 or missing. -/
def ninetyOrMissing : List Json :=
  [.int 1990, .null]

theorem membership_parts_iff_years :
    ∃ (within : Sql.Expr) (equations : List Sql.Expr),
      yearOutcome (.set ninetyOrMissing) = .ok (some within) ∧
      ninetyOrMissing.mapM (fun value => yearOutcome (.compare .eq value)) =
        .ok (equations.map some) ∧
      ¬ (within.verdict default (constantRow none) = some true ↔
        Verdict.any (equations.map fun equation =>
          equation.verdict default (constantRow none)) = some true) ∧
      ∃ read, Sql.Reading.predicate? (within.tokens .tsql) = some read ∧
        read.SaysSame within := by
  obtain ⟨within, _, equations, _, hwithin, -, hequations, -, hparts, hread⟩ :=
    membership_parts_iff "year" (.column (some "book") "year") ninetyOrMissing
  refine ⟨within, equations, hwithin, hequations, ?_, ?_⟩
  · apply (hparts default (constantRow none)).1.mpr
    exact ⟨List.mem_cons_of_mem _ List.mem_cons_self, rfl⟩
  · exact hread .tsql (.column "book" "year") within List.mem_cons_self

/-- A missing year is not found in the list, though it equals the null there; and 2000 is not
found outside of it, though it differs from both. -/
theorem listed_null_lost :
    ∃ (within without : Sql.Expr) (equations inequations : List Sql.Expr),
      yearOutcome (.set ninetyOrMissing) = .ok (some within) ∧
      yearOutcome (.not (.set ninetyOrMissing)) = .ok (some without) ∧
      ninetyOrMissing.mapM (fun value => yearOutcome (.compare .eq value)) =
        .ok (equations.map some) ∧
      ninetyOrMissing.mapM (fun value => yearOutcome (.not (.compare .eq value))) =
        .ok (inequations.map some) ∧
      within.verdict default (constantRow none) = none ∧
      Verdict.any (equations.map fun equation =>
        equation.verdict default (constantRow none)) = some true ∧
      without.verdict default (constantRow (some (.int 2000))) = none ∧
      Verdict.all (inequations.map fun inequation =>
        inequation.verdict default (constantRow (some (.int 2000)))) = some true :=
  ⟨_, _, [_, _], [_, _], rfl, rfl, rfl, rfl, rfl, rfl, rfl, rfl⟩

end TreeQuery.Plan.Predicate
