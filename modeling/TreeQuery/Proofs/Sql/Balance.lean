import Mathlib
import TreeQuery.Proofs.Sql.Spelling

/-!
# Parentheses in the spelling of a tree

Two measures of a list of tokens.  Its depth is the number of parentheses it leaves
open: the words of a tree leave none open and never close more than they opened.  Its
weight is the number of its other tokens: trees of one bare form have one weight.
-/

namespace TreeQuery.Sql

/-! ## Depth -/

/-- What a token adds to the number of open parentheses. -/
def Token.turn : Token → Int
  | .mark .open => 1
  | .mark .close => -1
  | _ => 0

/-- The number of parentheses that the tokens leave open. -/
def depth (tokens : List Token) : Int :=
  (tokens.map Token.turn).sum

@[simp]
theorem depth_nil : depth [] = 0 := rfl

@[simp]
theorem depth_cons (token : Token) (rest : List Token) :
    depth (token :: rest) = token.turn + depth rest := by
  simp [depth]

@[simp]
theorem depth_append (first second : List Token) :
    depth (first ++ second) = depth first + depth second := by
  simp [depth]

/-- Every parenthesis that the tokens open they close again, and no other. -/
structure Balanced (tokens : List Token) : Prop where
  whole : depth tokens = 0
  front : ∀ first, first <+: tokens → 0 ≤ depth first

theorem balanced_nil : Balanced [] := by
  refine ⟨rfl, fun first hfirst => ?_⟩
  rw [List.prefix_nil.mp hfirst, depth_nil]

theorem balanced_singleton {token : Token} (htoken : token.turn = 0) : Balanced [token] := by
  refine ⟨by simp [htoken], fun first hfirst => ?_⟩
  rcases List.prefix_cons_iff.mp hfirst with rfl | ⟨others, rfl, hothers⟩
  · rw [depth_nil]
  · rw [List.prefix_nil.mp hothers, depth_cons, htoken, depth_nil, zero_add]

theorem Balanced.append {first second : List Token} (hfirst : Balanced first)
    (hsecond : Balanced second) : Balanced (first ++ second) := by
  refine ⟨by rw [depth_append, hfirst.whole, hsecond.whole, zero_add], fun front hfront => ?_⟩
  obtain ⟨behind, hsplit⟩ := hfront
  rcases List.append_eq_append_iff.mp hsplit with ⟨more, hinside, _⟩ | ⟨more, rfl, hmore⟩
  · exact hfirst.front front ⟨more, hinside.symm⟩
  · rw [depth_append, hfirst.whole, zero_add]
    exact hsecond.front more ⟨behind, hmore.symm⟩

theorem Balanced.cons {token : Token} {tokens : List Token} (htoken : token.turn = 0)
    (htokens : Balanced tokens) : Balanced (token :: tokens) :=
  (balanced_singleton htoken).append htokens

/-- Before their last parenthesis, tokens in parentheses leave one open. -/
theorem Balanced.depth_pos {tokens first second : List Token} (htokens : Balanced tokens)
    (hsplit : parenthesized tokens = first ++ second) (hfirst : first ≠ [])
    (hsecond : second ≠ []) : 0 < depth first := by
  obtain ⟨token, inner, rfl⟩ := List.exists_cons_of_ne_nil hfirst
  rw [parenthesized, List.cons_append, List.cons_append] at hsplit
  obtain ⟨rfl, hinner⟩ := List.cons.inj hsplit
  have hfront : inner <+: tokens := by
    rw [← List.dropLast_append_getLast hsecond, ← List.append_assoc] at hinner
    exact ⟨_, (List.append_inj_left' hinner rfl).symm⟩
  have hdepth := htokens.front inner hfront
  rw [depth_cons]
  exact Int.add_pos_of_pos_of_nonneg Int.one_pos hdepth

theorem Balanced.parenthesized {tokens : List Token} (htokens : Balanced tokens) :
    Balanced (parenthesized tokens) := by
  have hwhole : depth (Sql.parenthesized tokens) = 0 := by
    simp [Sql.parenthesized, Token.turn, htokens.whole]
  refine ⟨hwhole, fun first hfirst => ?_⟩
  obtain ⟨second, hsplit⟩ := hfirst
  by_cases hnil : first = []
  · rw [hnil, depth_nil]
  · by_cases hend : second = []
    · rw [hend, List.append_nil] at hsplit
      rw [hsplit, hwhole]
    · exact (htokens.depth_pos hsplit.symm hnil hend).le

/-- Nothing balanced ends inside of parentheses. -/
theorem Balanced.parenthesized_ne {tokens first second : List Token} (htokens : Balanced tokens)
    (hfirst : Balanced first) (hne : first ≠ []) (hsecond : second ≠ []) :
    Sql.parenthesized tokens ≠ first ++ second :=
  fun hsplit => (htokens.depth_pos hsplit hne hsecond).ne' hfirst.whole

theorem balanced_words (operation : Operation) : Balanced operation.words := by
  have hnegation (negated : Bool) : Balanced (Operation.negation negated) := by
    cases negated with
    | true => exact balanced_singleton rfl
    | false => exact balanced_nil
  cases operation with
  | binary operator => cases operator <;> exact balanced_singleton rfl
  | is truth negated => exact .cons rfl ((hnegation negated).append (balanced_singleton rfl))
  | like negated caseless => exact (hnegation negated).append (balanced_singleton rfl)
  | member negated => exact (hnegation negated).append (balanced_singleton rfl)
  | window => exact balanced_singleton rfl

namespace Expr

theorem balanced_tablePrefixed (table : Option String) {tokens : List Token}
    (htokens : Balanced tokens) : Balanced (tablePrefixed table tokens) := by
  cases table with
  | none => exact htokens
  | some name => exact .cons rfl (.cons rfl htokens)

mutual

theorem balanced_spell : ∀ tree : Expr, Balanced tree.spell
  | column table name => balanced_tablePrefixed table (balanced_singleton rfl)
  | star table => balanced_tablePrefixed table (balanced_singleton rfl)
  | literal value => balanced_singleton rfl
  | not operand => .cons rfl (balanced_spell operand)
  | paren operand => (balanced_spell operand).parenthesized
  | binary operator left right =>
      (balanced_spell left).append ((balanced_words _).append (balanced_spell right))
  | is operand truth negated => (balanced_spell operand).append (balanced_words _)
  | like operand pattern negated caseless =>
      (balanced_spell operand).append ((balanced_words _).append (balanced_spell pattern))
  | member operand values negated =>
      (balanced_spell operand).append
        ((balanced_words _).append (balanced_spellList values).parenthesized)
  | call name arguments distinct => by
      apply Balanced.cons rfl
      apply Balanced.parenthesized
      cases distinct with
      | true => exact .cons rfl (balanced_spellList arguments)
      | false => exact balanced_spellList arguments
  | window function partition => by
      apply (balanced_spell function).append
      apply (balanced_words _).append
      apply Balanced.parenthesized
      cases hpartition : partition.isEmpty with
      | true => exact balanced_spellList partition
      | false => exact .cons rfl (balanced_spellList partition)

theorem balanced_spellList : ∀ items : List Expr, Balanced (spellList items)
  | [] => balanced_nil
  | [only] => balanced_spell only
  | first :: second :: rest =>
      (balanced_spell first).append (.cons rfl (balanced_spellList (second :: rest)))

end

/-- A group is spelled like nothing but a group. -/
theorem spell_paren_ne {tree : Expr} (htree : ∀ inner, tree ≠ paren inner) (operand : Expr) :
    parenthesized operand.spell ≠ tree.spell := by
  have hbehind (left : Expr) (operation : Operation) (tokens : List Token) :
      parenthesized operand.spell ≠ left.spell ++ (operation.words ++ tokens) :=
    (balanced_spell operand).parenthesized_ne (balanced_spell left) left.spell_ne_nil
      (List.append_ne_nil_of_left_ne_nil operation.words_ne_nil tokens)
  cases tree with
  | column table name => cases table <;> nofun
  | star table => cases table <;> nofun
  | literal value => nofun
  | not inner => nofun
  | call name arguments distinct => nofun
  | paren inner => exact absurd rfl (htree inner)
  | binary operator left right => exact hbehind left _ _
  | member left values negated => exact hbehind left _ _
  | is left truth negated =>
      have his := hbehind left (.is truth negated) []
      rwa [List.append_nil] at his
  | like left pattern negated caseless => exact hbehind left _ _
  | window function partition => exact hbehind function _ _

end Expr

/-! ## Weight -/

/-- Whether a token is no parenthesis. -/
def Token.counts : Token → Bool
  | .mark .open | .mark .close => false
  | _ => true

/-- The number of tokens that are no parentheses. -/
def weight (tokens : List Token) : Nat :=
  tokens.countP Token.counts

@[simp]
theorem weight_nil : weight [] = 0 := rfl

@[simp]
theorem weight_append (first second : List Token) :
    weight (first ++ second) = weight first + weight second :=
  List.countP_append

@[simp]
theorem weight_cons (token : Token) (rest : List Token) :
    weight (token :: rest) = weight rest + if token.counts then 1 else 0 :=
  List.countP_cons

@[simp]
theorem weight_parenthesized (tokens : List Token) :
    weight (parenthesized tokens) = weight tokens := by
  simp [parenthesized, Token.counts]

/-- Behind fronts of one weight, equal tokens go on with one token. -/
theorem append_inj_of_weight {first second behind after : List Token} {token other : Token}
    (heq : first ++ token :: behind = second ++ other :: after)
    (hweight : weight first = weight second) (htoken : token.counts = true)
    (hother : other.counts = true) :
    first = second ∧ token :: behind = other :: after := by
  rcases List.append_eq_append_iff.mp heq with ⟨gap, rfl, hgap⟩ | ⟨gap, rfl, hgap⟩
  · cases gap with
    | nil => exact ⟨(List.append_nil first).symm, hgap⟩
    | cons between more =>
        cases hgap
        simp [htoken] at hweight
  · cases gap with
    | nil => exact ⟨List.append_nil second, hgap.symm⟩
    | cons between more =>
        cases hgap
        simp [hother] at hweight

end TreeQuery.Sql
