import TreeQuery.Proofs.Sql.Reading
import TreeQuery.Proofs.Sql.Truth

/-!
# Conditions keep their meaning in writing

A condition is a combination of tests on columns by `AND`, `OR` and `NOT`.  Its
tokens, read back by precedence, give a predicate that says the same.  The two
need not be equal: chains of one operator associate to the left when read, a
group keeps its parentheses, and a test without an `IN` list or without `ILIKE` is
written as another test.
-/

namespace TreeQuery.Sql

open Reading

/-- A column of a table, or a literal. -/
inductive Scalar : Expr → Prop
  | column (table name : String) : Scalar (.column (some table) name)
  | literal (constant : Literal) : Scalar (.literal constant)

/-- A combination of tests on columns and literals. -/
inductive Condition : Expr → Prop
  | compare {operator : BinaryOperator} {left right : Expr}
      (hoperator : operator ≠ .and ∧ operator ≠ .or) (hleft : Scalar left)
      (hright : Scalar right) : Condition (.binary operator left right)
  | is {operand : Expr} (hoperand : Scalar operand) (truth : Truth) (negated : Bool) :
      Condition (.is operand truth negated)
  | like {operand pattern : Expr} (hoperand : Scalar operand) (hpattern : Scalar pattern)
      (negated caseless : Bool) : Condition (.like operand pattern negated caseless)
  | member {operand : Expr} (hoperand : Scalar operand) (constants : List Literal)
      (negated : Bool) : Condition (.member operand (constants.map .literal) negated)
  | and {left right : Expr} (hleft : Condition left) (hright : Condition right) :
      Condition (left.and right)
  | or {left right : Expr} (hleft : Condition left) (hright : Condition right) :
      Condition (left.or right)
  | not {operand : Expr} (hoperand : Condition operand) : Condition (.not operand)

theorem Scalar.bindsWeakerThan_eq_false {operand : Expr} (hoperand : Scalar operand)
    (parent : BinaryOperator) : operand.bindsWeakerThan parent = false := by
  cases hoperand <;> rfl

theorem Condition.isAtomic_eq_false {expression : Expr} (hcondition : Condition expression) :
    expression.isAtomic = false := by
  cases hcondition <;> rfl

/-! ## What the reader does with enough fuel -/

namespace Reading

/-- With enough fuel, the tokens read as a conjunction and leave the rest. -/
def Conjunction (tokens : List Token) (predicate : Expr) (rest : List Token) : Prop :=
  ∀ fuel, 3 * tokens.length + 2 ≤ fuel → conjunction? fuel tokens = some (predicate, rest)

/-- With enough fuel, the tokens continue a conjunction and leave the rest. -/
def Conditions (left : Expr) (tokens : List Token) (predicate : Expr) (rest : List Token) :
    Prop :=
  ∀ fuel, 3 * tokens.length ≤ fuel → conditions? fuel left tokens = some (predicate, rest)

/-- With enough fuel, the tokens read as a disjunction and leave the rest. -/
def Disjunction (tokens : List Token) (predicate : Expr) (rest : List Token) : Prop :=
  ∀ fuel, 3 * tokens.length + 3 ≤ fuel → disjunction? fuel tokens = some (predicate, rest)

/-- With enough fuel, the tokens continue a disjunction and leave the rest. -/
def Alternatives (left : Expr) (tokens : List Token) (predicate : Expr) (rest : List Token) :
    Prop :=
  ∀ fuel, 3 * tokens.length ≤ fuel → alternatives? fuel left tokens = some (predicate, rest)

theorem conditions_end {left : Expr} {rest : List Token}
    (hrest : rest.head? ≠ some (.keyword .AND)) : Conditions left rest left rest := by
  intro fuel _
  match fuel, rest, hrest with
  | 0, _, _ => simp [conditions?]
  | _ + 1, [], _ => simp [conditions?]
  | _ + 1, token :: rest, hrest =>
      rw [conditions?]
      intro _ _ heq hcons
      cases hcons
      exact hrest rfl

theorem alternatives_end {left : Expr} {rest : List Token}
    (hrest : rest.head? ≠ some (.keyword .OR)) : Alternatives left rest left rest := by
  intro fuel _
  match fuel, rest, hrest with
  | 0, _, _ => simp [alternatives?]
  | _ + 1, [], _ => simp [alternatives?]
  | _ + 1, token :: rest, hrest =>
      rw [alternatives?]
      intro _ _ heq hcons
      cases hcons
      exact hrest rfl

/-- Tokens that read as one operand of `AND`, `NOT` included, and say what the
expression says. -/
def AsOperand (tokens : List Token) (expression : Expr) : Prop :=
  ∃ predicate : Expr, predicate.SaysSame expression ∧
    ∀ rest fuel, 3 * (tokens ++ rest).length + 1 ≤ fuel →
      negation? fuel (tokens ++ rest) = some (predicate, rest)

/-- Tokens that read as a chain of `AND`, at its start and further on.  Whatever
reads the rest goes on with what was read so far. -/
structure AsConjunction (tokens : List Token) (expression : Expr) : Prop where
  first : ∃ predicate : Expr, predicate.SaysSame expression ∧
    ∀ rest result behind, Conditions predicate rest result behind →
      Conjunction (tokens ++ rest) result behind
  further : ∀ left : Expr, ∃ predicate : Expr, predicate.SaysSame (left.and expression) ∧
    ∀ rest result behind, Conditions predicate rest result behind →
      Conditions left (.keyword .AND :: (tokens ++ rest)) result behind

/-- Tokens that read as a chain of `OR`, at its start and further on. -/
structure AsDisjunction (tokens : List Token) (expression : Expr) : Prop where
  first : ∃ predicate : Expr, predicate.SaysSame expression ∧
    ∀ rest result behind, rest.head? ≠ some (.keyword .AND) →
      Alternatives predicate rest result behind → Disjunction (tokens ++ rest) result behind
  further : ∀ left : Expr, ∃ predicate : Expr, predicate.SaysSame (left.or expression) ∧
    ∀ rest result behind, rest.head? ≠ some (.keyword .AND) →
      Alternatives predicate rest result behind →
        Alternatives left (.keyword .OR :: (tokens ++ rest)) result behind

variable {tokens leftTokens rightTokens : List Token} {expression left right : Expr}

/-- One operand is a chain by itself. -/
theorem AsOperand.asConjunction (hread : AsOperand tokens expression) :
    AsConjunction tokens expression := by
  obtain ⟨predicate, hsame, hread⟩ := hread
  refine ⟨⟨predicate, hsame, ?_⟩, fun left => ⟨left.and predicate, .and_congr .refl hsame, ?_⟩⟩
  · intro rest result behind hrest fuel hfuel
    obtain ⟨fuel, rfl⟩ := Nat.exists_eq_add_of_le' (show 1 ≤ fuel by omega)
    rw [conjunction?, hread rest fuel (by omega), Option.bind_some]
    refine hrest fuel ?_
    rw [List.length_append] at hfuel
    omega
  · intro rest result behind hrest fuel hfuel
    rw [List.length_cons] at hfuel
    obtain ⟨fuel, rfl⟩ := Nat.exists_eq_add_of_le' (show 1 ≤ fuel by omega)
    rw [conditions?, hread rest fuel (by omega), Option.bind_some]
    refine hrest fuel ?_
    rw [List.length_append] at hfuel
    omega

/-- A chain of `AND` is an alternative by itself. -/
theorem AsConjunction.asDisjunction (hread : AsConjunction tokens expression) :
    AsDisjunction tokens expression := by
  obtain ⟨predicate, hsame, hread⟩ := hread.first
  have hconjunction : ∀ rest : List Token, rest.head? ≠ some (.keyword .AND) →
      Conjunction (tokens ++ rest) predicate rest :=
    fun rest hrest => hread rest predicate rest (conditions_end hrest)
  refine ⟨⟨predicate, hsame, ?_⟩, fun left => ⟨left.or predicate, .or_congr .refl hsame, ?_⟩⟩
  · intro rest result behind hend hrest fuel hfuel
    obtain ⟨fuel, rfl⟩ := Nat.exists_eq_add_of_le' (show 1 ≤ fuel by omega)
    rw [disjunction?, hconjunction rest hend fuel (by omega), Option.bind_some]
    refine hrest fuel ?_
    rw [List.length_append] at hfuel
    omega
  · intro rest result behind hend hrest fuel hfuel
    rw [List.length_cons] at hfuel
    obtain ⟨fuel, rfl⟩ := Nat.exists_eq_add_of_le' (show 1 ≤ fuel by omega)
    rw [alternatives?, hconjunction rest hend fuel (by omega), Option.bind_some]
    refine hrest fuel ?_
    rw [List.length_append] at hfuel
    omega

/-- Two chains of `AND` with `AND` between them are one chain. -/
theorem AsConjunction.and (hleft : AsConjunction leftTokens left)
    (hright : AsConjunction rightTokens right) :
    AsConjunction (leftTokens ++ .keyword .AND :: rightTokens) (left.and right) := by
  constructor
  · obtain ⟨predicate, hsame, hreadLeft⟩ := hleft.first
    obtain ⟨whole, hwhole, hreadRight⟩ := hright.further predicate
    refine ⟨whole, hwhole.trans (.and_congr hsame .refl), fun rest result behind hrest => ?_⟩
    rw [List.append_assoc, List.cons_append]
    exact hreadLeft _ _ _ (hreadRight _ _ _ hrest)
  · intro before
    obtain ⟨predicate, hsame, hreadLeft⟩ := hleft.further before
    obtain ⟨whole, hwhole, hreadRight⟩ := hright.further predicate
    refine ⟨whole, (hwhole.trans (.and_congr hsame .refl)).trans .and_assoc,
      fun rest result behind hrest => ?_⟩
    rw [List.append_assoc, List.cons_append]
    exact hreadLeft _ _ _ (hreadRight _ _ _ hrest)

/-- Two chains of `OR` with `OR` between them are one chain. -/
theorem AsDisjunction.or (hleft : AsDisjunction leftTokens left)
    (hright : AsDisjunction rightTokens right) :
    AsDisjunction (leftTokens ++ .keyword .OR :: rightTokens) (left.or right) := by
  constructor
  · obtain ⟨predicate, hsame, hreadLeft⟩ := hleft.first
    obtain ⟨whole, hwhole, hreadRight⟩ := hright.further predicate
    refine ⟨whole, hwhole.trans (.or_congr hsame .refl), fun rest result behind hend hrest => ?_⟩
    rw [List.append_assoc, List.cons_append]
    exact hreadLeft _ _ _ (by simp) (hreadRight _ _ _ hend hrest)
  · intro before
    obtain ⟨predicate, hsame, hreadLeft⟩ := hleft.further before
    obtain ⟨whole, hwhole, hreadRight⟩ := hright.further predicate
    refine ⟨whole, (hwhole.trans (.or_congr hsame .refl)).trans .or_assoc,
      fun rest result behind hend hrest => ?_⟩
    rw [List.append_assoc, List.cons_append]
    exact hreadLeft _ _ _ (by simp) (hreadRight _ _ _ hend hrest)

/-- Parentheses make any predicate one operand. -/
theorem AsDisjunction.parenthesized (hread : AsDisjunction tokens expression) :
    AsOperand (parenthesized tokens) expression := by
  obtain ⟨predicate, hsame, hread⟩ := hread.first
  refine ⟨.paren predicate, fun engine assignment => hsame engine assignment,
    fun rest fuel hfuel => ?_⟩
  have hinner : Disjunction (tokens ++ .mark .close :: rest) predicate (.mark .close :: rest) :=
    hread _ _ _ (by simp) (alternatives_end (by simp))
  have hlength : (Sql.parenthesized tokens ++ rest).length =
      (tokens ++ Token.mark .close :: rest).length + 1 := by
    simp [Sql.parenthesized]
  obtain ⟨fuel, rfl⟩ := Nat.exists_eq_add_of_le' (show 1 ≤ fuel by omega)
  rw [show Sql.parenthesized tokens ++ rest =
      Token.mark .open :: (tokens ++ Token.mark .close :: rest) by simp [Sql.parenthesized]]
  rw [negation?, hinner fuel (by omega)]

/-- `NOT` in front of one operand is one operand. -/
theorem AsOperand.not (hread : AsOperand tokens expression) :
    AsOperand (.keyword .NOT :: tokens) (.not expression) := by
  obtain ⟨predicate, hsame, hread⟩ := hread
  refine ⟨.not predicate, .not_congr hsame, fun rest fuel hfuel => ?_⟩
  rw [List.cons_append, List.length_cons] at hfuel
  obtain ⟨fuel, rfl⟩ := Nat.exists_eq_add_of_le' (show 1 ≤ fuel by omega)
  rw [List.cons_append, negation?, hread rest fuel (by omega), Option.map_some]

/-! ## The words of a test -/

theorem words_append (first second : List Token) :
    words (first ++ second) = words first ++ words second :=
  List.filter_append ..

@[simp]
theorem words_nil : words [] = [] := rfl

@[simp]
theorem words_blank (rest : List Token) : words (.blank :: rest) = words rest := rfl

theorem words_cons {token : Token} (htoken : token ≠ .blank) (rest : List Token) :
    words (token :: rest) = token :: words rest := by
  simp [words, htoken]

/-- A value in front of a test is read first. -/
theorem negation?_of_value? {tokens rest : List Token} {operand : Expr}
    (hvalue : value? tokens = some (operand, rest)) (fuel : Nat) :
    negation? (fuel + 1) tokens = test? operand rest := by
  rw [negation?, hvalue, Option.bind_some]
  · rintro rest rfl
    simp [value?] at hvalue
  · rintro rest rfl
    simp [value?] at hvalue

/-- A value and a test behind it are one operand. -/
theorem asOperand_of_test {valueTokens testTokens : List Token} {operand predicate : Expr}
    (hvalue : ∀ rest, value? (valueTokens ++ rest) = some (operand, rest))
    (htest : ∀ rest, test? operand (testTokens ++ rest) = some (predicate, rest))
    (hsame : predicate.SaysSame expression) :
    AsOperand (valueTokens ++ testTokens) expression := by
  refine ⟨predicate, hsame, fun rest fuel hfuel => ?_⟩
  obtain ⟨fuel, rfl⟩ := Nat.exists_eq_add_of_le' (show 1 ≤ fuel by omega)
  rw [List.append_assoc, negation?_of_value? (hvalue _), htest]

/-- The words of a column or a literal read as itself. -/
theorem value?_scalar (dialect : Dialect) {operand : Expr} (hoperand : Scalar operand)
    (rest : List Token) :
    value? (words (operand.tokens dialect) ++ rest) = some (operand, rest) := by
  cases hoperand with
  | column table name => simp [Expr.tokens, Expr.tablePrefixed, words_cons, value?]
  | literal constant => simp [Expr.tokens, words_cons, value?]

/-- The words of a lowered column or literal read as its lowering. -/
theorem value?_lowered (dialect : Dialect) {operand : Expr} (hoperand : Scalar operand)
    (rest : List Token) :
    value? (words (Expr.lowered (operand.tokens dialect)) ++ rest) =
      some (.call "LOWER" [operand] false, rest) := by
  have hwords : words (Expr.lowered (operand.tokens dialect)) ++ rest =
      .function "LOWER" :: .mark .open ::
        (words (operand.tokens dialect) ++ .mark .close :: rest) := by
    simp [Expr.lowered, parenthesized, words_cons, words_append]
  rw [hwords, value?, value?_scalar dialect hoperand]

/-- The words of a comparison sign name the operator. -/
theorem test?_comparison (dialect : Dialect) {operator : BinaryOperator} {operand other : Expr}
    (hoperator : operator ≠ .and ∧ operator ≠ .or) (hother : Scalar other) (rest : List Token) :
    test? operand (operator.token :: words (other.tokens dialect) ++ rest) =
      some (.binary operator operand other, rest) := by
  obtain ⟨sign, hsign, hcomparison⟩ :
      ∃ sign, operator.token = .mark sign ∧ comparison? sign = some operator := by
    cases operator <;> simp_all [BinaryOperator.token, comparison?]
  rw [hsign, List.cons_append, test?, hcomparison, value?_scalar dialect hother]
  rfl

/-- The words of an `IS` test, where the dialect has truth values behind `IS`. -/
theorem test?_is {dialect : Dialect} (hdialect : dialect.hasTruthPredicate = true)
    {operand : Expr} (truth : Truth) (negated : Bool) (rest : List Token) :
    test? operand (words (Expr.truthTest dialect truth negated) ++ rest) =
      some (.is operand truth negated, rest) := by
  cases truth <;> cases negated <;>
    simp [Expr.truthTest, hdialect, Expr.negation, words_cons, test?, truth?]

/-- The words of literals in a list read as those literals. -/
theorem literals?_list (dialect : Dialect) (first : Literal) (others : List Literal)
    (rest : List Token) :
    literals? (words (commaSeparated
        (Expr.listTokens dialect ((first :: others).map .literal))) ++ .mark .close :: rest) =
      some ((first :: others).map .literal, rest) := by
  induction others generalizing first with
  | nil => simp [commaSeparated, Expr.listTokens, Expr.tokens, words_cons, literals?]
  | cons second others ih =>
      have hwords : words (commaSeparated
          (Expr.listTokens dialect ((first :: second :: others).map .literal))) =
          .literal first :: .mark .comma :: words (commaSeparated
            (Expr.listTokens dialect ((second :: others).map .literal))) := by
        simp [commaSeparated, Expr.listTokens, Expr.tokens, words_cons]
      rw [hwords, List.cons_append, List.cons_append, literals?, ih second, Option.map_some]
      rfl

/-- A negation may stand in front of `IN`, `LIKE` and `ILIKE`. -/
theorem test?_membership {operand predicate : Expr} (negated : Bool) {word : Keyword}
    (hword : word = .IN ∨ word = .LIKE ∨ word = .ILIKE) {behind rest : List Token}
    (hread : membership? operand negated (.keyword word :: behind) = some (predicate, rest)) :
    test? operand (words (Expr.negation negated) ++ .keyword word :: behind) =
      some (predicate, rest) := by
  rw [← hread]
  cases negated with
  | true => simp [Expr.negation, words_cons, test?]
  | false => rcases hword with rfl | rfl | rfl <;> simp [Expr.negation, test?]

/-! ## The words of a condition -/

theorem words_parenthesized (tokens : List Token) :
    words (Sql.parenthesized tokens) = Sql.parenthesized (words tokens) := by
  simp [Sql.parenthesized, words_cons, words_append]

/-- A comparison of two values is one operand. -/
theorem asOperand_comparison (dialect : Dialect) {operator : BinaryOperator}
    (hoperator : operator ≠ .and ∧ operator ≠ .or) (hleft : Scalar left)
    (hright : Scalar right) :
    AsOperand (words ((Expr.binary operator left right).tokens dialect))
      (.binary operator left right) := by
  have hwords : words ((Expr.binary operator left right).tokens dialect) =
      words (left.tokens dialect) ++ (operator.token :: words (right.tokens dialect)) := by
    have htoken : operator.token ≠ .blank := by cases operator <;> simp [BinaryOperator.token]
    rw [Expr.tokens, hleft.bindsWeakerThan_eq_false, hright.bindsWeakerThan_eq_false]
    simp [Expr.grouped, words_append, words_cons htoken]
  rw [hwords]
  exact asOperand_of_test (value?_scalar dialect hleft)
    (test?_comparison dialect hoperator hright) .refl

/-- A test for null or a truth value is one operand. -/
theorem asOperand_is {dialect : Dialect} (hdialect : dialect.hasTruthPredicate = true)
    {operand : Expr} (hoperand : Scalar operand) (truth : Truth) (negated : Bool) :
    AsOperand (words ((Expr.is operand truth negated).tokens dialect))
      (.is operand truth negated) := by
  rw [Expr.tokens, words_append, words_append, words_blank, words_nil, List.append_nil]
  exact asOperand_of_test (value?_scalar dialect hoperand)
    (test?_is hdialect truth negated) .refl

/-- A test for membership is one operand.  Without members it is written as a
comparison of a number with itself. -/
theorem asOperand_member (dialect : Dialect) {operand : Expr} (hoperand : Scalar operand)
    (constants : List Literal) (negated : Bool) :
    AsOperand (words ((Expr.member operand (constants.map .literal) negated).tokens dialect))
      (.member operand (constants.map .literal) negated) := by
  cases constants with
  | nil =>
      let operator : BinaryOperator := if negated then .eq else .ne
      have hwords : words ((Expr.member operand [] negated).tokens dialect) =
          words ((Expr.literal (.int 1)).tokens dialect) ++
            (operator.token :: words ((Expr.literal (.int 1)).tokens dialect)) := by
        cases negated <;> rfl
      rw [List.map_nil, hwords]
      refine asOperand_of_test (value?_scalar dialect (.literal _))
        (test?_comparison dialect (by cases negated <;> simp [operator]) (.literal _)) ?_
      intro engine assignment
      cases negated <;>
        simp [operator, Expr.verdict, Expr.value, Engine.literal, Engine.test, Engine.compares,
          Engine.among, engine.equal_self, Verdict.negatedIf, Verdict.not]
  | cons first others =>
      have hwords :
          words ((Expr.member operand ((first :: others).map .literal) negated).tokens dialect) =
            words (operand.tokens dialect) ++ (words (Expr.negation negated) ++
              .keyword .IN :: .mark .open :: (words (commaSeparated
                (Expr.listTokens dialect ((first :: others).map .literal))) ++
                  [.mark .close])) := by
        rw [List.map_cons, Expr.tokens]
        simp [words_append, words_cons, Sql.parenthesized]
      rw [hwords]
      refine asOperand_of_test (value?_scalar dialect hoperand) (fun rest => ?_) .refl
      rw [List.append_assoc, List.cons_append, List.cons_append, List.append_assoc]
      refine test?_membership negated (.inl rfl) ?_
      rw [membership?, List.cons_append, List.nil_append, literals?_list, Option.map_some]

/-- A match is one operand.  Where the dialect has no match without regard to case,
both sides are lowered. -/
theorem asOperand_like (dialect : Dialect) {operand pattern : Expr} (hoperand : Scalar operand)
    (hpattern : Scalar pattern) (negated caseless : Bool) :
    AsOperand (words ((Expr.like operand pattern negated caseless).tokens dialect))
      (.like operand pattern negated caseless) := by
  rw [Expr.tokens]
  split
  · next hlowered =>
      obtain rfl : caseless = true := by simp_all
      have hwords : words (Expr.lowered (operand.tokens dialect) ++ [.blank] ++
          Expr.negation negated ++ [.keyword .LIKE, .blank] ++
            Expr.lowered (pattern.tokens dialect)) =
          words (Expr.lowered (operand.tokens dialect)) ++ (words (Expr.negation negated) ++
            .keyword .LIKE :: words (Expr.lowered (pattern.tokens dialect))) := by
        simp [words_append, words_cons]
      have hsame : (Expr.like (.call "LOWER" [operand] false) (.call "LOWER" [pattern] false)
          negated false).SaysSame (.like operand pattern negated true) := by
        intro engine assignment
        simp [Expr.verdict, Expr.value, Engine.likeness]
      rw [hwords]
      refine asOperand_of_test (value?_lowered dialect hoperand) (fun rest => ?_) hsame
      rw [List.append_assoc, List.cons_append]
      refine test?_membership negated (.inr (.inl rfl)) ?_
      rw [membership?, value?_lowered dialect hpattern, Option.map_some]
  · have hwords : words (operand.tokens dialect ++ [.blank] ++ Expr.negation negated ++
          [.keyword (if caseless then .ILIKE else .LIKE), .blank] ++ pattern.tokens dialect) =
        words (operand.tokens dialect) ++ (words (Expr.negation negated) ++
          .keyword (if caseless then .ILIKE else .LIKE) :: words (pattern.tokens dialect)) := by
      simp [words_append, words_cons]
    rw [hwords]
    refine asOperand_of_test (value?_scalar dialect hoperand) (fun rest => ?_) .refl
    rw [List.append_assoc, List.cons_append]
    cases caseless with
    | true =>
        refine test?_membership negated (.inr (.inr rfl)) ?_
        rw [membership?, value?_scalar dialect hpattern, Option.map_some]
    | false =>
        refine test?_membership negated (.inr (.inl rfl)) ?_
        rw [membership?, value?_scalar dialect hpattern, Option.map_some]

/-- Beside `AND` a condition stands as a chain of `AND`: as it is, or in parentheses
when it binds weaker. -/
theorem AsDisjunction.grouped (hdisjunction : AsDisjunction (words tokens) expression)
    (hconjunction : expression.bindsWeakerThan .and = false →
      AsConjunction (words tokens) expression) :
    AsConjunction (words (Expr.grouped (expression.bindsWeakerThan .and) tokens)) expression := by
  cases hweaker : expression.bindsWeakerThan .and with
  | true =>
      rw [Expr.grouped, if_pos rfl, words_parenthesized]
      exact hdisjunction.parenthesized.asConjunction
  | false => exact hconjunction hweaker

/-- The words of a condition read as a chain of `OR`, and as a chain of `AND` unless
the condition is a disjunction. -/
theorem asChain_condition {dialect : Dialect} (hdialect : dialect.hasTruthPredicate = true)
    (hcondition : Condition expression) :
    (expression.bindsWeakerThan .and = false →
      AsConjunction (words (expression.tokens dialect)) expression) ∧
      AsDisjunction (words (expression.tokens dialect)) expression := by
  have hoperand : ∀ {expression : Expr},
      AsOperand (words (expression.tokens dialect)) expression →
        (expression.bindsWeakerThan .and = false →
          AsConjunction (words (expression.tokens dialect)) expression) ∧
          AsDisjunction (words (expression.tokens dialect)) expression :=
    fun hread => ⟨fun _ => hread.asConjunction, hread.asConjunction.asDisjunction⟩
  induction hcondition with
  | compare hoperator hleft hright =>
      exact hoperand (asOperand_comparison dialect hoperator hleft hright)
  | is hscalar truth negated => exact hoperand (asOperand_is hdialect hscalar truth negated)
  | like hscalar hpattern negated caseless =>
      exact hoperand (asOperand_like dialect hscalar hpattern negated caseless)
  | member hscalar constants negated =>
      exact hoperand (asOperand_member dialect hscalar constants negated)
  | and hleft hright ihleft ihright =>
      have hconjunction := (ihleft.2.grouped ihleft.1).and (ihright.2.grouped ihright.1)
      have hwords : ∀ left right : Expr, words ((left.and right).tokens dialect) =
          words (Expr.grouped (left.bindsWeakerThan .and) (left.tokens dialect)) ++
            .keyword .AND ::
              words (Expr.grouped (right.bindsWeakerThan .and) (right.tokens dialect)) := by
        intro left right
        simp [Expr.and, Expr.tokens, words_append, words_cons, BinaryOperator.token]
      rw [hwords]
      exact ⟨fun _ => hconjunction, hconjunction.asDisjunction⟩
  | or hleft hright ihleft ihright =>
      -- no operator binds weaker than `OR`, so its operands are never grouped
      have hnever : ∀ operand : Expr, operand.bindsWeakerThan .or = false := by
        intro operand
        cases operand with
        | binary operator _ _ => cases operator <;> rfl
        | _ => rfl
      have hwords : ∀ left right : Expr, words ((left.or right).tokens dialect) =
          words (left.tokens dialect) ++ .keyword .OR :: words (right.tokens dialect) := by
        intro left right
        simp [Expr.or, Expr.tokens, hnever, Expr.grouped, words_append, words_cons,
          BinaryOperator.token]
      refine ⟨fun hweaker => by simp [Expr.or, Expr.bindsWeakerThan, BinaryOperator.strength]
        at hweaker, ?_⟩
      rw [hwords]
      exact ihleft.2.or ihright.2
  | not hinner ih =>
      have hwords : ∀ operand : Expr, operand.isAtomic = false →
          words ((Expr.not operand).tokens dialect) =
            .keyword .NOT :: Sql.parenthesized (words (operand.tokens dialect)) := by
        intro operand hatomic
        simp [Expr.tokens, hatomic, Expr.grouped, words_cons, words_parenthesized]
      refine hoperand ?_
      rw [hwords _ hinner.isAtomic_eq_false]
      exact ih.2.parenthesized.not

/-- The tokens of a condition read back as a predicate that says the same. -/
theorem predicate?_tokens {dialect : Dialect} (hdialect : dialect.hasTruthPredicate = true)
    (hcondition : Condition expression) :
    ∃ predicate : Expr, predicate? (expression.tokens dialect) = some predicate ∧
      predicate.SaysSame expression := by
  obtain ⟨predicate, hsame, hread⟩ := (asChain_condition hdialect hcondition).2.first
  refine ⟨predicate, ?_, hsame⟩
  have hwhole : Disjunction (words (expression.tokens dialect) ++ []) predicate [] :=
    hread [] _ _ (by simp) (alternatives_end (by simp))
  rw [List.append_nil] at hwhole
  rw [predicate?, hwhole _ le_rfl]

end Reading

end TreeQuery.Sql
