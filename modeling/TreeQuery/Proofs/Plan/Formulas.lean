import TreeQuery.Proofs.Plan.FilterMeaning
import TreeQuery.Proofs.Request.Formula

/-!
# Filters as formulas

Planning reads a filter with a stack of predicates, beside the stack of formulas that
the filter lists.  The two stay in step, so a filter whose clauses all become something
or nothing is planned exactly when it is empty or lists one formula, and what is planned
is that formula without the clauses that became nothing.
-/

namespace TreeQuery

/-- The predicate of predicates joined by connectives. -/
def Formula.predicate : Formula Sql.Expr → Sql.Expr
  | .part expression => expression
  | .join .and left right => left.predicate.and right.predicate
  | .join .or left right => left.predicate.or right.predicate

namespace Plan.Predicate

open Catalog (Memo Schema)
open Expression (formulas? formulas?_eq_some_iff formulas?_marker)
open Formula (joined?)

variable {schema : Schema} {path : Path} {memo now after : Memo} {expression : Expression}
  {planned : Clause → Option Sql.Expr}

/-- The predicate of a formula whose clauses become predicates or nothing. -/
def ofFormula (planned : Clause → Option Sql.Expr) (formula : Formula Clause) :
    Option Sql.Expr :=
  (formula.filterMap planned).map Formula.predicate

/-- How a connective combines two predicates of which either may be missing. -/
def connect? : Connective → Option Sql.Expr → Option Sql.Expr → Option Sql.Expr
  | .and => both?
  | .or => either?

theorem ofFormula_part (planned : Clause → Option Sql.Expr) (clause : Clause) :
    ofFormula planned (.part clause) = planned clause := by
  rw [ofFormula, Formula.filterMap]
  cases planned clause <;> rfl

theorem ofFormula_join (planned : Clause → Option Sql.Expr) (connective : Connective)
    (left right : Formula Clause) :
    ofFormula planned (.join connective left right) =
      connect? connective (ofFormula planned left) (ofFormula planned right) := by
  rw [ofFormula, ofFormula, ofFormula, Formula.filterMap]
  cases left.filterMap planned <;> cases right.filterMap planned <;> cases connective <;> rfl

theorem reduce_marker (path : Path) (results : List (Option Sql.Expr)) (connective : Connective)
    (rest : Expression) :
    reduce schema path results (connective.marker :: rest) =
      liftExcept (combine path (connect? connective) results) >>= fun results =>
        reduce schema path results rest := by
  cases connective <;> rfl

/-- The two stacks stay in step at a marker. -/
theorem combine_formulas (path : Path) (planned : Clause → Option Sql.Expr)
    (connective : Connective) (formulas : List (Formula Clause)) :
    combine path (connect? connective) (formulas.map (ofFormula planned)) =
      match joined? connective formulas with
      | some joined => .ok (joined.map (ofFormula planned))
      | none => .error (.malformed (.missingOperand path.outputName)) := by
  match formulas with
  | [] => rfl
  | [_] => rfl
  | right :: left :: before =>
      simp only [List.map_cons, combine, joined?, ofFormula_join]

/-- A clause becomes what it becomes on its own, whatever was asked about its path before. -/
theorem ofClause_again {clause : Clause} {predicate : Option Sql.Expr}
    (hgrows : Memo.Grows schema (· = path) memo now)
    (hrun : Succeeds (ofClause schema path clause) memo predicate after) :
    ∃ later, Succeeds (ofClause schema path clause) now predicate later ∧
      Memo.Grows schema (· = path) memo later := by
  obtain ⟨-, column, hanswer, hplanned⟩ := ofClause_succeeds hrun
  obtain ⟨later, hcolumn⟩ := Schema.column_again hgrows hanswer
  have hagain : Succeeds (ofClause schema path clause) now predicate later := by
    apply Succeeds.bind_iff.mpr
    refine ⟨column, later, Succeeds.adapt_iff.mpr hcolumn, ?_⟩
    rw [hplanned]
    exact Succeeds.pure_iff.mpr ⟨rfl, rfl⟩
  exact ⟨later, hagain, hgrows.trans (ofClause_succeeds hagain).1⟩

/-- All clauses of an expression become what a function tells of them. -/
def AllPlanned (schema : Schema) (path : Path) (memo : Memo) (planned : Clause → Option Sql.Expr)
    (expression : Expression) : Prop :=
  ∀ clause ∈ Expression.clauses expression,
    ∃ after, Succeeds (ofClause schema path clause) memo (planned clause) after

theorem AllPlanned.tail {term : Term}
    (hplanned : AllPlanned schema path memo planned (term :: expression)) :
    AllPlanned schema path memo planned expression := by
  intro clause hclause
  apply hplanned clause
  cases term with
  | clause first => exact List.mem_cons_of_mem first hclause
  | and => exact hclause
  | or => exact hclause

/-- While the formulas can be read, their predicates are planned. -/
theorem reduce_gives : ∀ {now : Memo} {formulas left : List (Formula Clause)},
    Memo.Grows schema (· = path) memo now → AllPlanned schema path memo planned expression →
    formulas? formulas expression = some left →
      ∃ after, Succeeds (reduce schema path (formulas.map (ofFormula planned)) expression) now
        (left.map (ofFormula planned)) after := by
  induction expression using Expression.markerInduction with
  | nil =>
      intro now formulas left _ _ hleft
      obtain rfl := Option.some.inj hleft
      exact ⟨now, Succeeds.pure_iff.mpr ⟨rfl, rfl⟩⟩
  | clause clause rest ih =>
      intro now formulas left hgrows hplanned hleft
      obtain ⟨_, hclause⟩ := hplanned clause List.mem_cons_self
      obtain ⟨later, hagain, hlater⟩ := ofClause_again hgrows hclause
      obtain ⟨after, hafter⟩ := ih hlater hplanned.tail hleft
      rw [List.map_cons, ofFormula_part] at hafter
      use after
      apply Succeeds.bind_iff.mpr
      exact ⟨planned clause, later, hagain, hafter⟩
  | marker connective rest ih =>
      intro now formulas left hgrows hplanned hleft
      rw [formulas?_marker] at hleft
      obtain ⟨joined, hjoined, hlater⟩ := Option.bind_eq_some_iff.mp hleft
      obtain ⟨after, hafter⟩ := ih hgrows hplanned.tail hlater
      have hcombine := combine_formulas path planned connective formulas
      rw [hjoined] at hcombine
      use after
      rw [reduce_marker]
      apply Succeeds.bind_iff.mpr
      exact ⟨_, now, Succeeds.liftExcept_iff.mpr ⟨hcombine, rfl⟩, hafter⟩

/-- Where the formulas cannot be read, a marker lacks an operand. -/
theorem reduce_lacks_operand : ∀ {now : Memo} {formulas : List (Formula Clause)},
    Memo.Grows schema (· = path) memo now → AllPlanned schema path memo planned expression →
    formulas? formulas expression = none →
      Fails (reduce schema path (formulas.map (ofFormula planned)) expression) now
        (.malformed (.missingOperand path.outputName)) := by
  induction expression using Expression.markerInduction with
  | nil =>
      intro now formulas _ _ hnone
      cases hnone
  | clause clause rest ih =>
      intro now formulas hgrows hplanned hnone
      obtain ⟨_, hclause⟩ := hplanned clause List.mem_cons_self
      obtain ⟨later, hagain, hlater⟩ := ofClause_again hgrows hclause
      have hrest := ih hlater hplanned.tail hnone
      rw [List.map_cons, ofFormula_part] at hrest
      exact Fails.bind_next hagain hrest
  | marker connective rest ih =>
      intro now formulas hgrows hplanned hnone
      rw [formulas?_marker] at hnone
      rw [reduce_marker]
      have hcombine := combine_formulas path planned connective formulas
      cases hjoined : joined? connective formulas with
      | none =>
          rw [hjoined] at hcombine
          exact Fails.bind (.liftExcept hcombine)
      | some joined =>
          rw [hjoined] at hcombine hnone
          apply Fails.bind_next (Succeeds.liftExcept_iff.mpr ⟨hcombine, rfl⟩)
          exact ih hgrows hplanned.tail hnone

/-- The listing of a formula is planned as the formula. -/
theorem ofExpression_gives {formula : Formula Clause}
    (hplanned : AllPlanned schema path memo planned formula.listing) :
    ∃ after, Succeeds (ofExpression schema path formula.listing) memo
      (ofFormula planned formula) after := by
  have hread : formulas? [] formula.listing = some [formula] := formulas?_eq_some_iff.mpr rfl
  obtain ⟨after, hreduce⟩ := reduce_gives .refl hplanned hread
  refine ⟨after, ?_⟩
  rw [ofExpression]
  split
  · next hempty =>
      rw [List.isEmpty_iff.mp hempty] at hread
      cases hread
  · exact Succeeds.bind_iff.mpr ⟨_, after, hreduce, Succeeds.pure_iff.mpr ⟨rfl, rfl⟩⟩

/-- An expression that lists no formula is malformed, the empty one apart. -/
theorem ofExpression_malformed (hplanned : AllPlanned schema path memo planned expression)
    (hne : expression ≠ []) (hnone : ∀ formula : Formula Clause, formula.listing ≠ expression) :
    ∃ reason, Fails (ofExpression schema path expression) memo (.malformed reason) := by
  have hnonempty : ¬ expression.isEmpty = true := mt List.isEmpty_iff.mp hne
  rw [ofExpression, if_neg hnonempty]
  cases hread : formulas? [] expression with
  | none => exact ⟨_, Fails.bind (reduce_lacks_operand .refl hplanned hread)⟩
  | some formulas =>
      obtain ⟨after, hreduce⟩ := reduce_gives .refl hplanned hread
      refine ⟨.severalResults path.outputName (formulas.map (ofFormula planned)).length,
        Fails.bind_next hreduce ?_⟩
      have hlisted := formulas?_eq_some_iff.mp hread
      rcases formulas with _ | ⟨formula, _ | ⟨_, _⟩⟩
      · exact .throw _ _
      · exact absurd hlisted (hnone formula)
      · exact .throw _ _

/-- Where planning comes to its end, so does reading, and both stacks are of one height. -/
theorem reduce_reads : ∀ {memo : Memo} {results final : List (Option Sql.Expr)}
    {formulas : List (Formula Clause)}, formulas.length = results.length →
    Succeeds (reduce schema path results expression) memo final after →
      ∃ left, formulas? formulas expression = some left ∧ left.length = final.length := by
  induction expression using Expression.markerInduction with
  | nil =>
      intro memo results final formulas hlength hrun
      obtain ⟨rfl, -⟩ := Succeeds.pure_iff.mp hrun
      exact ⟨formulas, rfl, hlength⟩
  | clause clause rest ih =>
      intro memo results final formulas hlength hrun
      obtain ⟨predicate, middle, -, hrest⟩ := Succeeds.bind_iff.mp hrun
      exact ih (congrArg (· + 1) hlength) hrest
  | marker connective rest ih =>
      intro memo results final formulas hlength hrun
      rw [reduce_marker] at hrun
      obtain ⟨next, middle, hstep, hrest⟩ := Succeeds.bind_iff.mp hrun
      obtain ⟨hcombine, rfl⟩ := Succeeds.liftExcept_iff.mp hstep
      rw [formulas?_marker]
      match results, formulas, hlength with
      | [], _, _ => cases hcombine
      | [_], _, _ => cases hcombine
      | right :: left :: before, last :: earlier :: others, hlength =>
          obtain rfl := Except.ok.inj hcombine
          have hjoined : (Formula.join connective earlier last :: others).length =
              (connect? connective left right :: before).length := Nat.succ.inj hlength
          exact ih hjoined hrest

/-- An expression that is planned is empty or lists a formula. -/
theorem ofExpression_lists {predicate : Option Sql.Expr}
    (hrun : Succeeds (ofExpression schema path expression) memo predicate after) :
    expression = [] ∨ ∃ formula : Formula Clause, formula.listing = expression := by
  rw [ofExpression] at hrun
  split at hrun
  · next hempty => exact .inl (List.isEmpty_iff.mp hempty)
  · obtain ⟨final, middle, hreduce, hrest⟩ := Succeeds.bind_iff.mp hrun
    have hsame : ([] : List (Formula Clause)).length = ([] : List (Option Sql.Expr)).length := rfl
    obtain ⟨left, hread, hlength⟩ := reduce_reads hsame hreduce
    have hlisted := formulas?_eq_some_iff.mp hread
    split at hrest
    · obtain ⟨formula, rfl⟩ := List.length_eq_one_iff.mp hlength
      exact .inr ⟨formula, hlisted⟩
    · exact absurd hrest Succeeds.not_throw

/-- A filter of clauses that each become something or nothing is planned exactly when it is
empty or lists a formula, and it becomes the predicate of that formula.  All other filters
are malformed. -/
theorem ofExpression_formula (hplanned : AllPlanned schema path memo planned expression) :
    (∀ predicate, (∃ after, Succeeds (ofExpression schema path expression) memo predicate after) ↔
      expression = [] ∧ predicate = none ∨
        ∃ formula : Formula Clause, formula.listing = expression ∧
          predicate = (formula.filterMap planned).map Formula.predicate) ∧
      (expression ≠ [] → (∀ formula : Formula Clause, formula.listing ≠ expression) →
        ∃ reason, Fails (ofExpression schema path expression) memo (.malformed reason)) := by
  refine ⟨fun predicate => ⟨?_, ?_⟩, ofExpression_malformed hplanned⟩
  · rintro ⟨after, hrun⟩
    rcases ofExpression_lists hrun with rfl | ⟨formula, rfl⟩
    · exact .inl ⟨rfl, (Succeeds.pure_iff.mp hrun).1.symm⟩
    · obtain ⟨_, hgives⟩ := ofExpression_gives hplanned
      exact .inr ⟨formula, rfl, hrun.value_eq hgives⟩
  · rintro (⟨rfl, rfl⟩ | ⟨formula, rfl, rfl⟩)
    · exact ⟨memo, Succeeds.pure_iff.mpr ⟨rfl, rfl⟩⟩
    · exact ofExpression_gives hplanned

/-- What a clause becomes on the shelf of one table. -/
def bookPredicate (clause : Clause) : Option Sql.Expr :=
  (ofOperator clause.column (.column (some "book") clause.column) clause.operator).toOption.join

/-- The formula of the guides outside the nineties.  Its range of years has no ends. -/
def guidesFormula : Formula Clause :=
  .join .and
    (.join .and
      (.join .or
        (.part ⟨"year", .not (.range (some (.compare .ge (.int 1990)))
          (some (.compare .lt (.int 2000))))⟩)
        (.part ⟨"title", .like "guide" false⟩))
      (.part ⟨"year", .range none none⟩))
    (.part ⟨"id", .set []⟩)

theorem allPlanned_guides :
    AllPlanned bookshelf [{ name := "book" }] {} bookPredicate guidesFormula.listing := by
  intro clause hclause
  have hlisted : clause ∈ ([⟨"year", .not (.range (some (.compare .ge (.int 1990)))
      (some (.compare .lt (.int 2000))))⟩, ⟨"title", .like "guide" false⟩,
      ⟨"year", .range none none⟩, ⟨"id", .set []⟩] : List Clause) := hclause
  simp only [List.mem_cons, List.not_mem_nil, or_false] at hlisted
  rcases hlisted with rfl | rfl | rfl | rfl <;> exact ⟨_, rfl⟩

theorem ofExpression_formula_guides :
    guidesFormula.listing = guidesOutsideTheNineties ∧
      (∃ after, Succeeds (ofExpression bookshelf [{ name := "book" }] guidesOutsideTheNineties) {}
        ((guidesFormula.filterMap bookPredicate).map Formula.predicate) after) ∧
      ∃ reason, Fails (ofExpression bookshelf [{ name := "book" }]
        (guidesOutsideTheNineties ++ [.and])) {} (.malformed reason) := by
  refine ⟨rfl, ((ofExpression_formula allPlanned_guides).1 _).mpr (.inr ⟨_, rfl, rfl⟩), ?_⟩
  have hplanned : AllPlanned bookshelf [{ name := "book" }] {} bookPredicate
      (guidesOutsideTheNineties ++ [.and]) := allPlanned_guides
  apply (ofExpression_formula hplanned).2 (List.cons_ne_nil _ _)
  intro formula hlisting
  have hread := Expression.formulas?_eq_singleton_iff.mpr hlisting
  cases hread

end Plan.Predicate

end TreeQuery
