import Mathlib
import TreeQuery.Proofs.Sql.PrecedenceComplete
import TreeQuery.Proofs.Sql.PrecedenceSound
import TreeQuery.Proofs.Sql.Rendering
import TreeQuery.Proofs.Sql.Unambiguous

/-!
# When the tokens of an expression keep its grouping

Operands of a weaker operator are written in parentheses, and so is everything compound
under `NOT`.  Read back by precedence, the tokens give the expression again, up to its
groups, the association of `AND` and of `OR`, the lowered form of a match without regard to
case and the constant form of a test without an `IN` list, exactly when no other operand
binds weaker than what it stands beside.
-/

namespace TreeQuery.Sql.Expr

open Reading

/-- What stands for an `IN` test without a list. -/
def constantTest (negated : Bool) : Expr :=
  binary (if negated then .eq else .ne) (literal (.int 1)) (literal (.int 1))

/-- The expression brought to lower case. -/
def lowerCase (operand : Expr) : Expr :=
  call "LOWER" [operand] false

/-- A match, by its lowered form where the dialect has no other. -/
def matching (dialect : Dialect) (operand pattern : Expr) (negated caseless : Bool) : Expr :=
  if caseless && !dialect.hasCaselessLike then
    like operand.lowerCase pattern.lowerCase negated false
  else like operand pattern negated caseless

mutual

/-- The expression with the tests that the dialect writes in another form. -/
def dialectForm (dialect : Dialect) : Expr → Expr
  | column table name => column table name
  | literal value => literal value
  | star table => star table
  | binary operator left right =>
      binary operator (left.dialectForm dialect) (right.dialectForm dialect)
  | not operand => not (operand.dialectForm dialect)
  | call name arguments distinct => call name (dialectForms dialect arguments) distinct
  | member _ [] negated => constantTest negated
  | member operand (value :: values) negated =>
      member (operand.dialectForm dialect) (dialectForms dialect (value :: values)) negated
  | is operand truth negated => is (operand.dialectForm dialect) truth negated
  | like operand pattern negated caseless =>
      matching dialect (operand.dialectForm dialect) (pattern.dialectForm dialect) negated
        caseless
  | paren operand => paren (operand.dialectForm dialect)
  | window function partition =>
      window (function.dialectForm dialect) (dialectForms dialect partition)

/-- The dialect form of each expression of a list. -/
def dialectForms (dialect : Dialect) : List Expr → List Expr
  | [] => []
  | first :: rest => first.dialectForm dialect :: dialectForms dialect rest

end

mutual

/-- Whether the expression is written in such a way that precedence keeps every operand
together.  Parentheses are written around a weaker operator beside an operator, and under
`NOT`; all other operands stand as they are. -/
def keepsGrouping (dialect : Dialect) : Expr → Bool
  | column .. | literal _ | star _ => true
  | binary operator left right =>
      left.keepsGrouping dialect && right.keepsGrouping dialect &&
        (left.bindsWeakerThan operator || operator.pull ≤ left.level) &&
        (right.bindsWeakerThan operator || operator.rightLevel ≤ right.level)
  | not operand => operand.keepsGrouping dialect
  | call name arguments _ => name ≠ "DISTINCT" && keepGrouping dialect arguments
  | member _ [] _ => true
  | member operand (value :: values) _ =>
      operand.keepsGrouping dialect && 4 ≤ operand.level &&
        keepGrouping dialect (value :: values)
  | is operand _ _ => operand.keepsGrouping dialect && 4 ≤ operand.level
  | like operand pattern _ caseless =>
      operand.keepsGrouping dialect && pattern.keepsGrouping dialect &&
        (caseless && !dialect.hasCaselessLike || 4 ≤ operand.level && 5 ≤ pattern.level)
  | paren operand => operand.keepsGrouping dialect
  | window function partition =>
      function.keepsGrouping dialect && 5 ≤ function.level && keepGrouping dialect partition

/-- Whether every expression of a list is written in such a way. -/
def keepGrouping (dialect : Dialect) : List Expr → Bool
  | [] => true
  | first :: rest => first.keepsGrouping dialect && keepGrouping dialect rest

end

/-! ## The tree that is written -/

/-- The expression, as a group when needed. -/
def grouping (needed : Bool) (operand : Expr) : Expr :=
  if needed then paren operand else operand

mutual

/-- The tree that the tokens of an expression spell. -/
def written (dialect : Dialect) : Expr → Expr
  | column table name => column table name
  | literal value => literal value
  | star table => star table
  | binary operator left right =>
      binary operator (grouping (left.bindsWeakerThan operator) (left.written dialect))
        (grouping (right.bindsWeakerThan operator) (right.written dialect))
  | not operand => not (grouping (!operand.isAtomic) (operand.written dialect))
  | call name arguments distinct => call name (writtenList dialect arguments) distinct
  | member _ [] negated => constantTest negated
  | member operand (value :: values) negated =>
      member (operand.written dialect) (writtenList dialect (value :: values)) negated
  | is operand truth negated => is (operand.written dialect) truth negated
  | like operand pattern negated caseless =>
      matching dialect (operand.written dialect) (pattern.written dialect) negated caseless
  | paren operand => paren (operand.written dialect)
  | window function partition =>
      window (function.written dialect) (writtenList dialect partition)

/-- The trees that the tokens of each expression of a list spell. -/
def writtenList (dialect : Dialect) : List Expr → List Expr
  | [] => []
  | first :: rest => first.written dialect :: writtenList dialect rest

end

variable (dialect : Dialect)

@[simp]
theorem bare_grouping (needed : Bool) (operand : Expr) :
    (grouping needed operand).bare = operand.bare := by
  cases needed <;> rfl

theorem level_matching (operand pattern : Expr) (negated caseless : Bool) :
    (matching dialect operand pattern negated caseless).level = 4 := by
  rw [matching]
  split <;> rfl

theorem level_constantTest (negated : Bool) : (constantTest negated).level = 4 := by
  cases negated <;> rfl

/-- Writing an expression keeps its level. -/
theorem level_written (expression : Expr) :
    (expression.written dialect).level = expression.level := by
  fun_cases written dialect expression with
  | case7 operand negated => exact level_constantTest negated
  | case10 operand pattern negated caseless => exact level_matching dialect _ _ negated caseless
  | _ => rfl

theorem bare_matching {operand other pattern behind : Expr} (hoperand : operand.bare = other.bare)
    (hpattern : pattern.bare = behind.bare) (negated caseless : Bool) :
    (matching dialect operand pattern negated caseless).bare =
      (matching dialect other behind negated caseless).bare := by
  simp only [matching]
  split <;> simp [lowerCase, bare, bareList, hoperand, hpattern]

mutual

/-- Writing an expression adds nothing but groups to its dialect form. -/
theorem bare_written : ∀ expression : Expr,
    (expression.written dialect).bare = (expression.dialectForm dialect).bare
  | column table name | literal value | star table | member operand [] negated => rfl
  | binary operator left right => by
      simp [written, dialectForm, bare, bare_written left, bare_written right]
  | not operand => by simp [written, dialectForm, bare, bare_written operand]
  | call name arguments distinct => by
      simp [written, dialectForm, bare, bareList_writtenList arguments]
  | member operand (value :: values) negated => by
      simp [written, dialectForm, bare, bare_written operand,
        bareList_writtenList (value :: values)]
  | is operand truth negated => by simp [written, dialectForm, bare, bare_written operand]
  | like operand pattern negated caseless =>
      bare_matching dialect (bare_written operand) (bare_written pattern) negated caseless
  | paren operand => bare_written operand
  | window function partition => by
      simp [written, dialectForm, bare, bare_written function, bareList_writtenList partition]

theorem bareList_writtenList : ∀ items : List Expr,
    bareList (writtenList dialect items) = bareList (dialectForms dialect items)
  | [] => rfl
  | first :: rest => by
      rw [writtenList, dialectForms, bareList, bareList, bare_written first,
        bareList_writtenList rest]

end

/-! ## The tokens spell the tree that is written -/

@[simp]
theorem words_tablePrefixed (table : Option String) (token : Token) (htoken : token ≠ .blank) :
    words (tablePrefixed table [token]) = tablePrefixed table [token] := by
  cases table <;> simp [tablePrefixed, words_cons, htoken]

theorem words_grouped (needed : Bool) {tokens : List Token} {tree : Expr}
    (htokens : words tokens = tree.spell) :
    words (grouped needed tokens) = (grouping needed tree).spell := by
  cases needed with
  | true => rw [grouped, if_pos rfl, words_parenthesized, htokens, grouping, if_pos rfl, spell]
  | false => exact htokens

theorem words_negation (negated : Bool) :
    words (negation negated) = Operation.negation negated := by
  cases negated <;> rfl

theorem words_lowered {tokens : List Token} {tree : Expr} (htokens : words tokens = tree.spell) :
    words (lowered tokens) = tree.lowerCase.spell := by
  rw [lowered, words_cons (by simp), words_parenthesized, htokens]
  rfl

theorem words_truthTest {dialect : Dialect} (hdialect : dialect.hasTruthPredicate = true)
    (truth : Truth) (negated : Bool) :
    words (truthTest dialect truth negated) = (Operation.is truth negated).words := by
  cases truth <;> cases negated <;> simp [truthTest, hdialect] <;> rfl

mutual

theorem words_tokens {dialect : Dialect} (hdialect : dialect.hasTruthPredicate = true) :
    ∀ expression : Expr, words (expression.tokens dialect) = (expression.written dialect).spell
  | column table name => words_tablePrefixed table _ (by simp)
  | literal value => rfl
  | star table => words_tablePrefixed table _ (by simp)
  | binary operator left right => by
      have hoperator : words [.blank, operator.token, .blank] = [operator.token] := by
        cases operator <;> rfl
      rw [tokens, words_append, words_append, hoperator,
        words_grouped _ (words_tokens hdialect left), words_grouped _ (words_tokens hdialect right),
        List.append_assoc]
      rfl
  | not operand => by
      rw [tokens, words_append, words_grouped _ (words_tokens hdialect operand)]
      rfl
  | call name arguments distinct => by
      have harguments := words_listTokens hdialect arguments
      rw [tokens, words_cons (by simp), words_parenthesized, words_append, harguments]
      cases distinct <;> rfl
  | member operand [] negated => by cases negated <;> rfl
  | member operand (value :: values) negated => by
      have hvalues := words_listTokens hdialect (value :: values)
      rw [tokens]
      simp only [words_append, words_tokens hdialect operand, words_negation,
        words_parenthesized, hvalues, List.append_assoc]
      simp [written, spell, Operation.words, words_cons]
  | is operand truth negated => by
      rw [tokens, words_append, words_append, words_tokens hdialect operand,
        words_truthTest hdialect]
      simp [written, spell]
  | like operand pattern negated caseless => by
      have hoperand := words_tokens hdialect operand
      have hpattern := words_tokens hdialect pattern
      rw [tokens, written, matching]
      split
      · simp only [words_append, words_lowered hoperand, words_lowered hpattern, words_negation]
        simp [spell, Operation.words, words_cons]
      · simp only [words_append, hoperand, hpattern, words_negation]
        simp [spell, Operation.words, words_cons]
  | paren operand => by
      rw [tokens, words_parenthesized, words_tokens hdialect operand]
      rfl
  | window function partition => by
      have hpartition := words_listTokens hdialect partition
      rw [tokens]
      simp only [words_append, words_tokens hdialect function, words_parenthesized, hpartition,
        List.append_assoc]
      cases partition <;> simp [written, writtenList, spell, Operation.words, words_cons]

theorem words_listTokens {dialect : Dialect} (hdialect : dialect.hasTruthPredicate = true) :
    ∀ items : List Expr, words (commaSeparated (listTokens dialect items)) =
      spellList (writtenList dialect items)
  | [] => rfl
  | [only] => by
      rw [listTokens, listTokens, commaSeparated, List.intercalate_singleton,
        words_tokens hdialect only]
      rfl
  | first :: second :: rest => by
      have hrest := words_listTokens hdialect (second :: rest)
      rw [listTokens, commaSeparated] at hrest
      rw [listTokens, listTokens, commaSeparated, List.intercalate_cons_cons, words_append,
        words_append, hrest, words_tokens hdialect first, List.append_assoc]
      rfl

end

/-! ## The tree that is written is well grouped when the grouping is kept -/

theorem wellGrouped_grouping (needed : Bool) (operand : Expr) (bound : Nat) (hbound : bound ≤ 5) :
    ((grouping needed operand).WellGrouped ∧ bound ≤ (grouping needed operand).level) ↔
      operand.WellGrouped ∧ (needed = true ∨ bound ≤ operand.level) := by
  cases needed with
  | true => simp [grouping, WellGrouped, level, hbound]
  | false => simp [grouping]

theorem level_of_isAtomic (expression : Expr) (hatomic : expression.isAtomic = true) :
    expression.level = 5 := by
  cases expression <;> simp_all [isAtomic, level]

mutual

theorem wellGrouped_written : ∀ expression : Expr,
    (expression.written dialect).WellGrouped ↔ expression.keepsGrouping dialect = true
  | column table name | literal value | star table => by
      simp [written, WellGrouped, keepsGrouping]
  | binary operator left right => by
      have hpull : operator.pull ≤ 5 := by cases operator <;> decide
      have hright : operator.rightLevel ≤ 5 := by cases operator <;> decide
      rw [written, WellGrouped, wellGrouped_grouping _ _ _ hpull,
        wellGrouped_grouping _ _ _ hright, wellGrouped_written left, wellGrouped_written right,
        level_written, level_written]
      simp only [keepsGrouping, Bool.and_eq_true, Bool.or_eq_true, decide_eq_true_eq]
      tauto
  | not operand => by
      have hatomic : (!operand.isAtomic) = true ∨ 3 ≤ (operand.written dialect).level := by
        cases hatomic : operand.isAtomic with
        | false => exact .inl rfl
        | true => exact .inr (by rw [level_written, level_of_isAtomic operand hatomic]; decide)
      rw [written, WellGrouped, wellGrouped_grouping _ _ _ (by decide), keepsGrouping,
        wellGrouped_written operand]
      exact and_iff_left hatomic
  | call name arguments distinct => by
      simp [written, WellGrouped, keepsGrouping, allGrouped_writtenList arguments]
  | member operand [] negated => by
      cases negated <;>
        simp [written, constantTest, WellGrouped, keepsGrouping, level, BinaryOperator.pull,
          BinaryOperator.rightLevel, BinaryOperator.chains]
  | member operand (value :: values) negated => by
      have hvalues := allGrouped_writtenList (value :: values)
      rw [written, WellGrouped, wellGrouped_written operand, level_written, hvalues,
        keepsGrouping, writtenList]
      simp [and_assoc]
  | is operand truth negated => by
      simp [written, WellGrouped, keepsGrouping, wellGrouped_written operand, level_written]
  | like operand pattern negated caseless => by
      have hoperand := wellGrouped_written operand
      have hpattern := wellGrouped_written pattern
      rw [written, matching, keepsGrouping]
      split
      · next hlowered =>
          simp [lowerCase, WellGrouped, AllGrouped, level, hlowered, hoperand, hpattern]
      · next hlowered =>
          simp only [WellGrouped, level_written, hoperand, hpattern, hlowered]
          simp
          tauto
  | paren operand => wellGrouped_written operand
  | window function partition => by
      simp [written, WellGrouped, keepsGrouping, wellGrouped_written function, level_written,
        allGrouped_writtenList partition]

theorem allGrouped_writtenList : ∀ items : List Expr,
    AllGrouped (writtenList dialect items) ↔ keepGrouping dialect items = true
  | [] => by simp [writtenList, AllGrouped, keepGrouping]
  | first :: rest => by
      rw [writtenList, AllGrouped, wellGrouped_written first, allGrouped_writtenList rest,
        keepGrouping, Bool.and_eq_true]

end

variable {dialect : Dialect}

/-- Where `IS TRUE` exists, the tokens of an expression read back as it, up to groups, the
association of `AND` and of `OR` and the forms of the dialect, exactly when it is written
in such a way that precedence keeps every operand together. -/
theorem tokens_read_back_iff (hdialect : dialect.hasTruthPredicate = true) (expression : Expr) :
    (∃ read, Precedence.read? (expression.tokens dialect) = some read ∧
      read.bare = (expression.dialectForm dialect).bare) ↔
      expression.keepsGrouping dialect = true := by
  have hwords := words_tokens hdialect expression
  rw [← wellGrouped_written, ← bare_written]
  constructor
  · rintro ⟨read, hread, hbare⟩
    obtain ⟨hgrouped, hspell⟩ := Precedence.words_of_read? hread
    exact (wellGrouped_iff_of_spell (hspell.symm.trans hwords) hbare).mp hgrouped
  · exact fun hgrouped => Precedence.read?_of_words hgrouped hwords

/-- A match without regard to case, beside a test for truth or a negated test without an
`IN` list. -/
def matchingTitles : Expr :=
  .and (like (column none "title") (literal (.string "emma")) false true)
    (.or (is (column none "archived") .true false)
      (not (member (column none "series") [] false)))

/-- The lowered match and the constant test are read back as such. -/
theorem tokens_read_back_iff_matchingTitles :
    Dialect.sqlite.hasTruthPredicate = true ∧
      ∃ read, Precedence.read? (matchingTitles.tokens .sqlite) = some read ∧
        read.bare = (matchingTitles.dialectForm .sqlite).bare :=
  ⟨rfl, (tokens_read_back_iff rfl matchingTitles).mpr rfl⟩

/-- Whether the negation of a column is true. -/
def comparedNegation : Expr :=
  binary .eq (not (column none "a")) (literal (.bool true))

/-- Beside a comparison `NOT` is written without parentheses.  The tokens read back as
the negation of the comparison. -/
theorem comparedNegation_regrouped :
    Precedence.read? (comparedNegation.tokens .postgres) =
        some (not (binary .eq (column none "a") (literal (.bool true)))) ∧
      ¬∃ read, Precedence.read? (comparedNegation.tokens .postgres) = some read ∧
        read.bare = (comparedNegation.dialectForm .postgres).bare := by
  have hread : Precedence.read? (comparedNegation.tokens .postgres) =
      some (not (binary .eq (column none "a") (literal (.bool true)))) := rfl
  refine ⟨hread, ?_⟩
  rintro ⟨read, hsome, hbare⟩
  rw [hread] at hsome
  cases hsome
  cases hbare

/-- Beside `AND` and `OR` every operand that is not in parentheses binds at least as
strongly. -/
theorem bindsWeakerThan_or_pull_le {operator : BinaryOperator}
    (hchains : operator.chains = true) (operand : Expr) :
    operand.bindsWeakerThan operator = true ∨ operator.pull ≤ operand.level := by
  have hpull := BinaryOperator.pull_lt_of_chains hchains
  cases operand with
  | binary own left right =>
      cases operator <;> cases own <;>
        simp_all [bindsWeakerThan, BinaryOperator.strength, level, BinaryOperator.pull,
          BinaryOperator.chains]
  | not operand => exact .inr hpull.le
  | _ => exact .inr (hpull.le.trans (by simp [level]))

end TreeQuery.Sql.Expr

/-! ## Conditions on columns keep their grouping -/

namespace TreeQuery.Sql

variable (dialect : Dialect) {expression operand : Expr}

theorem Scalar.level_eq (hscalar : Scalar operand) : operand.level = 5 := by
  cases hscalar <;> rfl

theorem Scalar.keepsGrouping (hscalar : Scalar operand) : operand.keepsGrouping dialect = true := by
  cases hscalar <;> simp [Expr.keepsGrouping]

theorem keepGrouping_literals (constants : List Literal) :
    Expr.keepGrouping dialect (constants.map .literal) = true := by
  induction constants with
  | nil => simp [Expr.keepGrouping]
  | cons first rest ih => simp [Expr.keepGrouping, Expr.keepsGrouping, ih]

/-- Tests on columns and their combinations are written in such a way that precedence
keeps every operand together. -/
theorem Condition.keepsGrouping (hcondition : Condition expression) :
    expression.keepsGrouping dialect = true := by
  induction hcondition with
  | @compare operator left right hoperator hleft hright =>
      have hpull : operator.pull = 4 ∧ operator.rightLevel = 5 := by
        cases operator <;> simp_all [BinaryOperator.pull, BinaryOperator.rightLevel,
          BinaryOperator.chains]
      simp [Expr.keepsGrouping, hleft.keepsGrouping, hright.keepsGrouping, hleft.level_eq,
        hright.level_eq, hpull]
  | is hoperand truth negated =>
      simp [Expr.keepsGrouping, hoperand.keepsGrouping, hoperand.level_eq]
  | like hoperand hpattern negated caseless =>
      simp [Expr.keepsGrouping, hoperand.keepsGrouping, hpattern.keepsGrouping,
        hoperand.level_eq, hpattern.level_eq]
  | member hoperand constants negated =>
      have hconstants := keepGrouping_literals dialect constants
      cases constants with
      | nil => simp [Expr.keepsGrouping]
      | cons first rest =>
          simp_all [Expr.keepsGrouping, hoperand.keepsGrouping, hoperand.level_eq]
  | @and left right hleft hright ihleft ihright =>
      have hlinks := Expr.bindsWeakerThan_or_pull_le (show BinaryOperator.and.chains = true from rfl)
      simpa [Expr.and, Expr.keepsGrouping, ihleft, ihright, BinaryOperator.rightLevel,
        BinaryOperator.chains] using ⟨hlinks left, hlinks right⟩
  | @or left right hleft hright ihleft ihright =>
      have hlinks := Expr.bindsWeakerThan_or_pull_le (show BinaryOperator.or.chains = true from rfl)
      simpa [Expr.or, Expr.keepsGrouping, ihleft, ihright, BinaryOperator.rightLevel,
        BinaryOperator.chains] using ⟨hlinks left, hlinks right⟩
  | not hoperand ih => simpa [Expr.keepsGrouping] using ih

end TreeQuery.Sql
