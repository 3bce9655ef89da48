import Mathlib
import TreeQuery.Proofs.Sql.Balance

/-!
# The links of a chain

A chain of an operator falls into its links, which the association does not change.  When
two chains have one spelling and one bare form, their links are spelled alike and have
the same bare forms, one by one.
-/

namespace TreeQuery.Sql.Expr

/-! ## Trees of one bare form have one weight -/

theorem counts_token (operator : BinaryOperator) : operator.token.counts = true := by
  cases operator <;> rfl

theorem weight_spell_binary (operator : BinaryOperator) (left right : Expr) :
    weight (binary operator left right).spell =
      weight left.spell + (weight right.spell + 1) := by
  simp [spell, Operation.words, counts_token]

theorem weight_spell_chain (operator : BinaryOperator) (first last : Expr) :
    weight (chain operator first last).spell = weight first.spell + (weight last.spell + 1) := by
  fun_induction chain operator first last with
  | case1 first others last ih =>
      rw [weight_spell_binary, ih, weight_spell_binary]
      omega
  | case2 own first others last hown => rw [weight_spell_binary]
  | case3 first last hfirst => rw [weight_spell_binary]

theorem isEmpty_bareList (items : List Expr) : (bareList items).isEmpty = items.isEmpty := by
  cases items <;> rfl

mutual

theorem weight_spell_bare : ∀ tree : Expr, weight tree.bare.spell = weight tree.spell
  | column table name | star table | literal value => rfl
  | paren operand => by rw [bare, spell, weight_parenthesized, weight_spell_bare operand]
  | not operand => by simp [bare, spell, weight_spell_bare operand]
  | is operand truth negated => by simp [bare, spell, weight_spell_bare operand]
  | like operand pattern negated caseless => by
      simp [bare, spell, weight_spell_bare operand, weight_spell_bare pattern]
  | member operand values negated => by
      simp [bare, spell, weight_spell_bare operand, weight_spellList_bareList values]
  | call name arguments distinct => by
      simp [bare, spell, weight_spellList_bareList arguments]
  | window function partition => by
      simp [bare, spell, isEmpty_bareList, weight_spell_bare function,
        weight_spellList_bareList partition]
  | binary operator left right => by
      rw [weight_spell_binary, ← weight_spell_bare left, ← weight_spell_bare right, bare]
      split
      · exact weight_spell_chain operator left.bare right.bare
      · exact weight_spell_binary operator left.bare right.bare

theorem weight_spellList_bareList : ∀ items : List Expr,
    weight (spellList (bareList items)) = weight (spellList items)
  | [] => rfl
  | [only] => weight_spell_bare only
  | first :: second :: rest => by
      have hrest := weight_spellList_bareList (second :: rest)
      rw [bareList] at hrest
      simp [bareList, spellList, weight_spell_bare first, hrest]

end

theorem weight_eq_of_bare_eq {tree other : Expr} (hbare : tree.bare = other.bare) :
    weight tree.spell = weight other.spell := by
  rw [← weight_spell_bare, hbare, weight_spell_bare]

/-! ## Links -/

/-- The trees between the operators of a chain. -/
def links (operator : BinaryOperator) : Expr → List Expr
  | binary own left right =>
      if own = operator then links operator left ++ links operator right
      else [binary own left right]
  | tree => [tree]

/-- The words of trees, each behind a separator. -/
def spellLinks (separator : Token) (items : List Expr) : List Token :=
  items.flatMap fun item => separator :: item.spell

theorem spellLinks_append (separator : Token) (first second : List Expr) :
    spellLinks separator (first ++ second) =
      spellLinks separator first ++ spellLinks separator second :=
  List.flatMap_append

theorem spellLinks_links (operator : BinaryOperator) (tree : Expr) :
    spellLinks operator.token (links operator tree) = operator.token :: tree.spell := by
  fun_induction links operator tree with
  | case1 left right ihleft ihright =>
      rw [spellLinks_append, ihleft, ihright]
      rfl
  | case2 own left right hown => simp [spellLinks]
  | case3 tree htree => simp [spellLinks]

theorem links_chain (operator : BinaryOperator) (first last : Expr) :
    links operator (chain operator first last) =
      links operator first ++ links operator last := by
  fun_induction chain operator first last with
  | case1 first others last ih => rw [links, if_pos rfl, ih, links, if_pos rfl, List.append_assoc]
  | case2 own first others last hown => rw [links, if_pos rfl]
  | case3 first last hfirst => rw [links, if_pos rfl]

/-- Chains of an operator put together again. -/
def joined (operator : BinaryOperator) : List Expr → Expr
  | [] => star none
  | [only] => only
  | first :: second :: rest => chain operator first (joined operator (second :: rest))

theorem joined_append (operator : BinaryOperator) {first second : List Expr} (hfirst : first ≠ [])
    (hsecond : second ≠ []) :
    joined operator (first ++ second) =
      chain operator (joined operator first) (joined operator second) := by
  fun_induction joined operator first with
  | case1 => exact absurd rfl hfirst
  | case2 only =>
      obtain ⟨head, rest, rfl⟩ := List.exists_cons_of_ne_nil hsecond
      rfl
  | case3 head next rest ih =>
      rw [List.cons_append, List.cons_append, joined, ← List.cons_append,
        ih (List.cons_ne_nil next rest), chain_assoc]

theorem links_ne_nil (operator : BinaryOperator) (tree : Expr) : links operator tree ≠ [] := by
  fun_induction links operator tree with
  | case1 left right ihleft _ => exact List.append_ne_nil_of_left_ne_nil ihleft _
  | case2 | case3 => exact List.cons_ne_nil _ _

theorem links_of_ne {operator : BinaryOperator} {tree : Expr}
    (htree : ∀ left right, tree ≠ binary operator left right) : links operator tree = [tree] := by
  fun_cases links operator tree with
  | case1 left right => exact absurd rfl (htree left right)
  | case2 | case3 => rfl

theorem ne_of_mem_links {operator : BinaryOperator} {tree item : Expr}
    (hitem : item ∈ links operator tree) (left right : Expr) :
    item ≠ binary operator left right := by
  fun_induction links operator tree with
  | case1 first last ihfirst ihlast => exact (List.mem_append.mp hitem).elim ihfirst ihlast
  | case2 own first last hown =>
      rw [List.mem_singleton.mp hitem]
      exact fun heq => hown (binary.inj heq).1
  | case3 tree htree =>
      rw [List.mem_singleton.mp hitem]
      exact htree operator left right

/-- The bare form of a tree with an operator at its root has the operator there. -/
theorem exists_bare_binary (operator : BinaryOperator) (left right : Expr) :
    ∃ first last, (binary operator left right).bare = binary operator first last := by
  rw [bare]
  split
  · fun_cases chain operator left.bare right.bare <;> exact ⟨_, _, rfl⟩
  · exact ⟨left.bare, right.bare, rfl⟩

theorem bare_binary_ne {operator own : BinaryOperator} (hown : own ≠ operator)
    (left right first last : Expr) :
    (binary own left right).bare ≠ binary operator first last := by
  obtain ⟨head, tail, hbare⟩ := exists_bare_binary own left right
  rw [hbare]
  exact fun heq => hown (binary.inj heq).1

/-- The links of a bare form put together again are the bare form. -/
theorem joined_links_bare {operator : BinaryOperator} (hchains : operator.chains = true) :
    ∀ tree : Expr, joined operator (links operator tree.bare) = tree.bare
  | binary own left right => by
      by_cases hown : own = operator
      · rw [hown, bare_binary_chain hchains, links_chain,
          joined_append operator (links_ne_nil operator _) (links_ne_nil operator _),
          joined_links_bare hchains left, joined_links_bare hchains right]
      · rw [links_of_ne (bare_binary_ne hown left right), joined]
  | paren operand => joined_links_bare hchains operand
  | column .. | star _ | literal _ | not _ | is .. | like .. | member .. | call .. | window .. =>
      rfl

/-- The links of a bare form are those of the bare forms of the links. -/
theorem links_bare {operator : BinaryOperator} (hchains : operator.chains = true) (tree : Expr) :
    links operator tree.bare =
      (links operator tree).flatMap fun item => links operator item.bare := by
  fun_induction links operator tree with
  | case1 left right ihleft ihright =>
      rw [bare_binary_chain hchains, links_chain, ihleft, ihright, List.flatMap_append]
  | case2 | case3 => rw [List.flatMap_singleton]

/-- The bare form of one link that is no group is one link. -/
theorem links_bare_of_ne {operator : BinaryOperator} {tree : Expr}
    (htree : ∀ left right, tree ≠ binary operator left right)
    (hgroup : ∀ inner, tree ≠ paren inner) : links operator tree.bare = [tree.bare] := by
  cases tree with
  | binary own left right =>
      have hown : own ≠ operator := fun heq => htree left right (by rw [heq])
      exact links_of_ne (bare_binary_ne hown left right)
  | paren inner => exact absurd rfl (hgroup inner)
  | _ => rfl

/-! ## Chains of one spelling -/

section Pairing

variable {operator : BinaryOperator} {tree other : Expr}

theorem weight_spellLinks_bare (operator : BinaryOperator) (tree : Expr) :
    weight (spellLinks operator.token (links operator tree.bare)) = weight tree.spell + 1 := by
  simp [spellLinks_links, weight_spell_bare, counts_token]

theorem head_spellLinks {separator token : Token} {items : List Expr} {rest : List Token}
    (hspell : spellLinks separator items = token :: rest) : token = separator := by
  cases items with
  | nil => cases hspell
  | cons first others => exact (List.cons.inj hspell).1.symm

/-- Of two links, none goes on with the operator where the other one ends. -/
theorem spell_ne_of_links_bare (hother : ∀ left right, other ≠ binary operator left right)
    {behind after : List Expr}
    (hbare : links operator tree.bare ++ behind = links operator other.bare ++ after)
    (gap : List Token) : other.spell ≠ tree.spell ++ operator.token :: gap := by
  intro hspell
  by_cases hgroup : ∀ inner, other ≠ paren inner
  · -- the other link is the first of the links of this one, and so not heavier
    obtain ⟨first, rest, hlinks⟩ :=
      List.exists_cons_of_ne_nil (links_ne_nil operator tree.bare)
    rw [links_bare_of_ne hother hgroup, hlinks] at hbare
    obtain ⟨rfl, -⟩ := List.cons.inj hbare
    have hweight := weight_spellLinks_bare operator tree
    rw [hlinks] at hweight
    simp [spellLinks, counts_token, weight_spell_bare, hspell] at hweight
    omega
  · obtain ⟨inner, rfl⟩ := not_forall_not.mp hgroup
    exact (balanced_spell inner).parenthesized_ne (balanced_spell tree) tree.spell_ne_nil
      (List.cons_ne_nil operator.token gap) hspell

/-- Links of one weight at the start of one list of bare links have one bare form. -/
theorem bare_eq_of_links_bare (hchains : operator.chains = true)
    (hweight : weight tree.spell = weight other.spell) {behind after : List Expr}
    (hbare : links operator tree.bare ++ behind = links operator other.bare ++ after) :
    tree.bare = other.bare ∧ behind = after := by
  have hempty (gap : List Expr) (hgap : weight (spellLinks operator.token gap) = 0) :
      gap = [] := by
    cases gap with
    | nil => rfl
    | cons first rest => simp [spellLinks, counts_token] at hgap
  have htree := weight_spellLinks_bare operator tree
  have hotherWeight := weight_spellLinks_bare operator other
  have hlinks : links operator tree.bare = links operator other.bare := by
    rcases List.append_eq_append_iff.mp hbare with ⟨gap, hgap, -⟩ | ⟨gap, hgap, -⟩
    · rw [hgap, spellLinks_append, weight_append] at hotherWeight
      rw [hgap, hempty gap (by omega), List.append_nil]
    · rw [hgap, spellLinks_append, weight_append] at htree
      rw [hgap, hempty gap (by omega), List.append_nil]
  refine ⟨?_, List.append_cancel_left (hlinks ▸ hbare)⟩
  rw [← joined_links_bare hchains tree, hlinks, joined_links_bare hchains other]

/-- Lists of links of one spelling and of one bare form agree link by link. -/
theorem links_paired (hchains : operator.chains = true) {items others : List Expr}
    (hitems : ∀ item ∈ items, ∀ left right, item ≠ binary operator left right)
    (hothers : ∀ item ∈ others, ∀ left right, item ≠ binary operator left right)
    (hspell : spellLinks operator.token items = spellLinks operator.token others)
    (hbare : (items.flatMap fun item => links operator item.bare) =
      others.flatMap fun item => links operator item.bare) :
    List.Forall₂ (fun item other => item.spell = other.spell ∧ item.bare = other.bare) items
      others := by
  induction items generalizing others with
  | nil =>
      cases others with
      | nil => exact .nil
      | cons other others => cases hspell
  | cons item items ih =>
      cases others with
      | nil => cases hspell
      | cons other others =>
          obtain ⟨hitem, hitems⟩ := List.forall_mem_cons.mp hitems
          obtain ⟨hother, hothers⟩ := List.forall_mem_cons.mp hothers
          have htail : item.spell ++ spellLinks operator.token items =
              other.spell ++ spellLinks operator.token others := (List.cons.inj hspell).2
          rw [List.flatMap_cons, List.flatMap_cons] at hbare
          have hsame : item.spell = other.spell ∧
              spellLinks operator.token items = spellLinks operator.token others := by
            rcases List.append_eq_append_iff.mp htail with ⟨gap, hgap, hrest⟩ | ⟨gap, hgap, hrest⟩
            · cases gap with
              | nil => exact ⟨by rw [hgap, List.append_nil], hrest⟩
              | cons token gap =>
                  rw [head_spellLinks hrest] at hgap
                  exact absurd hgap (spell_ne_of_links_bare hother hbare gap)
            · cases gap with
              | nil => exact ⟨by rw [hgap, List.append_nil], hrest.symm⟩
              | cons token gap =>
                  rw [head_spellLinks hrest] at hgap
                  exact absurd hgap (spell_ne_of_links_bare hitem hbare.symm gap)
          obtain ⟨hfirst, hrest⟩ := bare_eq_of_links_bare hchains (by rw [hsame.1]) hbare
          exact .cons ⟨hsame.1, hfirst⟩ (ih hitems hothers hsame.2 hrest)

end Pairing

end TreeQuery.Sql.Expr
