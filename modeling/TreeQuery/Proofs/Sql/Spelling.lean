import Mathlib
import TreeQuery.Proofs.Sql.Precedence

/-!
# Trees and their spelling

A tree spells its words with no parentheses but those of its groups, calls and lists.
It is well grouped when every part stands at a level that holds it together there.  Two
trees have the same bare form when they differ in groups and in the association of
`AND` and of `OR` only.
-/

namespace TreeQuery.Sql

theorem parenthesized_append (tokens rest : List Token) :
    parenthesized tokens ++ rest = .mark .open :: (tokens ++ .mark .close :: rest) := by
  simp [parenthesized]

/-- Whether the operator makes chains whose association does not matter. -/
def BinaryOperator.chains : BinaryOperator → Bool
  | and | or => true
  | eq | ne | lt | gt | le | ge => false

/-- The least level of a right operand.  A chain may go on there. -/
def BinaryOperator.rightLevel (operator : BinaryOperator) : Nat :=
  if operator.chains then operator.pull else operator.pull + 1

theorem BinaryOperator.pull_lt_of_chains {operator : BinaryOperator}
    (hchains : operator.chains = true) : operator.pull < 3 := by
  cases operator <;> simp_all [chains, pull]

theorem BinaryOperator.pull_of_not_chains {operator : BinaryOperator}
    (hchains : operator.chains = false) : operator.pull = 4 := by
  cases operator <;> simp_all [chains, pull]

theorem BinaryOperator.eq_of_pull_eq {operator other : BinaryOperator}
    (hchains : operator.chains = true) (heq : other.pull = operator.pull) :
    other = operator := by
  cases operator <;> cases other <;> simp_all [chains, pull]

namespace Expr

theorem one_le_level (tree : Expr) : 1 ≤ tree.level := by
  cases tree with
  | binary operator _ _ => cases operator <;> simp [level, BinaryOperator.pull]
  | _ => simp [level]

/-- Puts an expression behind a chain of an operator. -/
def chain (operator : BinaryOperator) : Expr → Expr → Expr
  | binary own first others, last =>
      if own = operator then binary operator first (chain operator others last)
      else binary operator (binary own first others) last
  | only, last => binary operator only last

mutual

/-- The expression without groups, its chains associated to the right. -/
def bare : Expr → Expr
  | binary operator left right =>
      if operator.chains then chain operator left.bare right.bare
      else binary operator left.bare right.bare
  | not operand => not operand.bare
  | call name arguments distinct => call name (bareList arguments) distinct
  | member operand values negated => member operand.bare (bareList values) negated
  | is operand truth negated => is operand.bare truth negated
  | like operand pattern negated caseless => like operand.bare pattern.bare negated caseless
  | paren operand => operand.bare
  | window function partition => window function.bare (bareList partition)
  | column table name => column table name
  | literal value => literal value
  | star table => star table

/-- The bare form of each expression of a list. -/
def bareList : List Expr → List Expr
  | [] => []
  | first :: rest => first.bare :: bareList rest

end

mutual

/-- The words of a tree. -/
def spell : Expr → List Token
  | column table name => tablePrefixed table [.identifier name]
  | literal value => [.literal value]
  | binary operator left right =>
      left.spell ++ ((Operation.binary operator).words ++ right.spell)
  | not operand => .keyword .NOT :: operand.spell
  | call name arguments distinct =>
      .function name :: parenthesized
        ((if distinct then [.function "DISTINCT"] else []) ++ spellList arguments)
  | member operand values negated =>
      operand.spell ++ ((Operation.member negated).words ++ parenthesized (spellList values))
  | is operand truth negated => operand.spell ++ (Operation.is truth negated).words
  | like operand pattern negated caseless =>
      operand.spell ++ ((Operation.like negated caseless).words ++ pattern.spell)
  | star table => tablePrefixed table [.mark .star]
  | paren operand => parenthesized operand.spell
  | window function partition =>
      function.spell ++ (Operation.window.words ++ parenthesized
        ((if partition.isEmpty then [] else [.keyword .PARTITION_BY]) ++ spellList partition))

/-- The words of a list, with commas between its items. -/
def spellList : List Expr → List Token
  | [] => []
  | [only] => only.spell
  | first :: second :: rest => first.spell ++ .mark .comma :: spellList (second :: rest)

end

mutual

/-- Every part of the tree stands at a level that holds it together. -/
def WellGrouped : Expr → Prop
  | binary operator left right =>
      (left.WellGrouped ∧ operator.pull ≤ left.level) ∧
        right.WellGrouped ∧ operator.rightLevel ≤ right.level
  | not operand => operand.WellGrouped ∧ 3 ≤ operand.level
  | call name arguments _ => name ≠ "DISTINCT" ∧ AllGrouped arguments
  | member operand values _ =>
      (operand.WellGrouped ∧ 4 ≤ operand.level) ∧ values ≠ [] ∧ AllGrouped values
  | is operand _ _ => operand.WellGrouped ∧ 4 ≤ operand.level
  | like operand pattern _ _ =>
      (operand.WellGrouped ∧ 4 ≤ operand.level) ∧ pattern.WellGrouped ∧ 5 ≤ pattern.level
  | paren operand => operand.WellGrouped
  | window function partition =>
      (function.WellGrouped ∧ 5 ≤ function.level) ∧ AllGrouped partition
  | column .. | literal _ | star _ => True

/-- Every tree of a list is well grouped. -/
def AllGrouped : List Expr → Prop
  | [] => True
  | first :: rest => first.WellGrouped ∧ AllGrouped rest

end

theorem wellGrouped_binary (operator : BinaryOperator) (left right : Expr) :
    (binary operator left right).WellGrouped ↔
      (left.WellGrouped ∧ operator.pull ≤ left.level) ∧
        right.WellGrouped ∧ operator.rightLevel ≤ right.level :=
  Iff.rfl

theorem spell_ne_nil : ∀ tree : Expr, tree.spell ≠ []
  | column table name | star table => by cases table <;> exact List.cons_ne_nil _ _
  | literal value => List.cons_ne_nil _ _
  | not operand => List.cons_ne_nil _ _
  | call name arguments distinct => List.cons_ne_nil _ _
  | paren operand => List.cons_ne_nil _ _
  | binary operator left right => List.append_ne_nil_of_left_ne_nil (spell_ne_nil left) _
  | member operand values negated => List.append_ne_nil_of_left_ne_nil (spell_ne_nil operand) _
  | is operand truth negated => List.append_ne_nil_of_left_ne_nil (spell_ne_nil operand) _
  | like operand pattern negated caseless =>
      List.append_ne_nil_of_left_ne_nil (spell_ne_nil operand) _
  | window function partition => List.append_ne_nil_of_left_ne_nil (spell_ne_nil function) _

/-! ## Chains -/

section Chains

variable (operator : BinaryOperator)

/-- What stands behind a chain stands behind its last link. -/
theorem chain_assoc (first second third : Expr) :
    chain operator (chain operator first second) third =
      chain operator first (chain operator second third) := by
  fun_induction chain operator first second with
  | case1 first others second ih => rw [chain, if_pos rfl, chain, if_pos rfl, ih]
  | case2 own first others second hown => rw [chain, if_pos rfl, chain, if_neg hown]
  | case3 first second hfirst =>
      rw [chain, if_pos rfl, chain.eq_2 operator first _ hfirst]

theorem bare_binary_chain {operator : BinaryOperator} (hchains : operator.chains = true)
    (left right : Expr) :
    (binary operator left right).bare = chain operator left.bare right.bare := by
  rw [bare, if_pos hchains]

theorem bare_binary {operator : BinaryOperator} (hchains : operator.chains = false)
    (left right : Expr) :
    (binary operator left right).bare = binary operator left.bare right.bare := by
  rw [bare, hchains, if_neg Bool.false_ne_true]

end Chains

end Expr

end TreeQuery.Sql
