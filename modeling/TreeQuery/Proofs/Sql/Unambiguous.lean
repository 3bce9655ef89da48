import Mathlib
import TreeQuery.Proofs.Sql.Links

/-!
# Spelling and bare form settle the grouping

Two trees of one spelling and one bare form stand at one level, and one is well grouped
when the other is.  They need not be equal, as chains may be associated differently.
-/

namespace TreeQuery.Sql.Expr

/-! ## The constructor at the root -/

theorem ctorIdx_bare {tree : Expr} (htree : ∀ inner, tree ≠ paren inner) :
    tree.bare.ctorIdx = tree.ctorIdx := by
  cases tree with
  | binary operator left right =>
      obtain ⟨first, last, hbare⟩ := exists_bare_binary operator left right
      rw [hbare]
      rfl
  | paren inner => exact absurd rfl (htree inner)
  | _ => rfl

/-- Trees of one spelling and one bare form have one constructor at the root. -/
theorem ctorIdx_eq {tree other : Expr} (hspell : tree.spell = other.spell)
    (hbare : tree.bare = other.bare) : tree.ctorIdx = other.ctorIdx := by
  by_cases htree : ∀ inner, tree ≠ paren inner
  · by_cases hother : ∀ inner, other ≠ paren inner
    · rw [← ctorIdx_bare htree, hbare, ctorIdx_bare hother]
    · obtain ⟨inner, rfl⟩ := not_forall_not.mp hother
      exact absurd hspell.symm (spell_paren_ne htree inner)
  · obtain ⟨inner, rfl⟩ := not_forall_not.mp htree
    by_cases hother : ∀ inner, other ≠ paren inner
    · exact absurd hspell (spell_paren_ne hother inner)
    · obtain ⟨inner, rfl⟩ := not_forall_not.mp hother
      rfl

/-! ## Trees whose grouping is settled -/

/-- Spelling and bare form settle the level of the tree and whether it is well grouped. -/
def Settled (tree : Expr) : Prop :=
  ∀ other : Expr, tree.spell = other.spell → tree.bare = other.bare →
    tree.level = other.level ∧ (tree.WellGrouped ↔ other.WellGrouped)

/-- Spelling and bare form settle whether a settled tree holds together at a level. -/
theorem Settled.above {tree other : Expr} (htree : Settled tree)
    (hspell : tree.spell = other.spell) (hbare : tree.bare = other.bare) (bound : Nat) :
    (tree.WellGrouped ∧ bound ≤ tree.level) ↔ other.WellGrouped ∧ bound ≤ other.level := by
  obtain ⟨hlevel, hgrouped⟩ := htree other hspell hbare
  rw [hlevel, hgrouped]

/-- Spelling and bare forms settle whether every tree of the list is well grouped. -/
def SettledList (items : List Expr) : Prop :=
  ∀ others : List Expr, spellList items = spellList others → bareList items = bareList others →
    (AllGrouped items ↔ AllGrouped others)

/-- Operands of one bare form end where one operation begins. -/
theorem spell_eq_of_operation {operand other : Expr} {operation : Operation}
    {tokens others : List Token} (hbare : operand.bare = other.bare)
    (hspell : operand.spell ++ (operation.words ++ tokens) =
      other.spell ++ (operation.words ++ others)) :
    operand.spell = other.spell ∧ tokens = others := by
  obtain ⟨word, more, hwords, hcounts⟩ :
      ∃ word more, operation.words = word :: more ∧ word.counts = true := by
    cases operation with
    | binary operator => exact ⟨_, _, rfl, counts_token operator⟩
    | is truth negated => exact ⟨_, _, rfl, rfl⟩
    | like negated caseless => cases negated <;> exact ⟨_, _, rfl, rfl⟩
    | member negated => cases negated <;> exact ⟨_, _, rfl, rfl⟩
    | window => exact ⟨_, _, rfl, rfl⟩
  rw [hwords] at hspell
  obtain ⟨hoperand, hrest⟩ :=
    append_inj_of_weight hspell (weight_eq_of_bare_eq hbare) hcounts hcounts
  exact ⟨hoperand, List.append_cancel_left (List.cons.inj hrest).2⟩

theorem parenthesized_inj {first second : List Token}
    (heq : parenthesized first = parenthesized second) : first = second :=
  List.append_cancel_right (List.cons.inj heq).2

variable {operand pattern left right function : Expr} {items : List Expr}

theorem Settled.not (hoperand : Settled operand) : Settled (not operand) := by
  intro other hspell hbare
  have hroot := ctorIdx_eq hspell hbare
  cases other with
  | not inner =>
      exact ⟨rfl, hoperand.above (List.cons.inj hspell).2 (not.inj hbare) 3⟩
  | _ => cases hroot

theorem Settled.paren (hoperand : Settled operand) : Settled (paren operand) := by
  intro other hspell hbare
  have hroot := ctorIdx_eq hspell hbare
  cases other with
  | paren inner => exact ⟨rfl, (hoperand inner (parenthesized_inj hspell) hbare).2⟩
  | _ => cases hroot

theorem Settled.is (hoperand : Settled operand) (truth : Truth) (negated : Bool) :
    Settled (is operand truth negated) := by
  intro other hspell hbare
  have hroot := ctorIdx_eq hspell hbare
  cases other with
  | is inner truth negated =>
      obtain ⟨hinner, rfl, rfl⟩ := is.inj hbare
      have hwords : (Operation.is truth negated).words =
          (Operation.is truth negated).words ++ [] := (List.append_nil _).symm
      change operand.spell ++ _ = inner.spell ++ _ at hspell
      rw [hwords] at hspell
      exact ⟨rfl, hoperand.above (spell_eq_of_operation hinner hspell).1 hinner 4⟩
  | _ => cases hroot

theorem Settled.like (hoperand : Settled operand) (hpattern : Settled pattern)
    (negated caseless : Bool) : Settled (like operand pattern negated caseless) := by
  intro other hspell hbare
  have hroot := ctorIdx_eq hspell hbare
  cases other with
  | like inner behind negated caseless =>
      obtain ⟨hinner, hbehind, rfl, rfl⟩ := like.inj hbare
      obtain ⟨hfirst, hsecond⟩ := spell_eq_of_operation hinner hspell
      exact ⟨rfl, and_congr (hoperand.above hfirst hinner 4) (hpattern.above hsecond hbehind 5)⟩
  | _ => cases hroot

theorem ne_nil_iff_of_bareList {others : List Expr} (hbare : bareList items = bareList others) :
    items ≠ [] ↔ others ≠ [] := by
  rw [← List.isEmpty_eq_false_iff, ← isEmpty_bareList, hbare, isEmpty_bareList,
    List.isEmpty_eq_false_iff]

theorem Settled.member (hoperand : Settled operand) (hitems : SettledList items)
    (negated : Bool) : Settled (member operand items negated) := by
  intro other hspell hbare
  have hroot := ctorIdx_eq hspell hbare
  cases other with
  | member inner others negated =>
      obtain ⟨hinner, hothers, rfl⟩ := member.inj hbare
      obtain ⟨hfirst, hsecond⟩ := spell_eq_of_operation hinner hspell
      have hvalues := hitems others (parenthesized_inj hsecond) hothers
      exact ⟨rfl, and_congr (hoperand.above hfirst hinner 4)
        (and_congr (ne_nil_iff_of_bareList hothers) hvalues)⟩
  | _ => cases hroot

theorem Settled.call (hitems : SettledList items) (name : String) (distinct : Bool) :
    Settled (call name items distinct) := by
  intro other hspell hbare
  have hroot := ctorIdx_eq hspell hbare
  cases other with
  | call name others distinct =>
      obtain ⟨rfl, hothers, rfl⟩ := call.inj hbare
      have harguments := List.append_cancel_left (parenthesized_inj (List.cons.inj hspell).2)
      exact ⟨rfl, and_congr Iff.rfl (hitems others harguments hothers)⟩
  | _ => cases hroot

theorem Settled.window (hfunction : Settled function) (hitems : SettledList items) :
    Settled (window function items) := by
  intro other hspell hbare
  have hroot := ctorIdx_eq hspell hbare
  cases other with
  | window inner others =>
      obtain ⟨hinner, hothers⟩ := window.inj hbare
      obtain ⟨hfirst, hsecond⟩ := spell_eq_of_operation hinner hspell
      have hpartition := parenthesized_inj hsecond
      rw [← isEmpty_bareList items, hothers, isEmpty_bareList] at hpartition
      exact ⟨rfl, and_congr (hfunction.above hfirst hinner 5)
        (hitems others (List.append_cancel_left hpartition) hothers)⟩
  | _ => cases hroot

theorem operator_eq_of_bare {operator own : BinaryOperator} {first second : Expr}
    (hbare : (binary operator left right).bare = (binary own first second).bare) :
    operator = own := by
  obtain ⟨head, tail, hown⟩ := exists_bare_binary own first second
  by_contra hne
  exact bare_binary_ne hne left right head tail (hbare.trans hown)

theorem Settled.binary {operator : BinaryOperator} (hoperator : operator.chains = false)
    (hleft : Settled left) (hright : Settled right) : Settled (binary operator left right) := by
  intro other hspell hbare
  have hroot := ctorIdx_eq hspell hbare
  cases other with
  | binary own first second =>
      obtain rfl := operator_eq_of_bare hbare
      rw [bare_binary hoperator, bare_binary hoperator] at hbare
      obtain ⟨-, hbareLeft, hbareRight⟩ := binary.inj hbare
      obtain ⟨hfirst, hsecond⟩ := spell_eq_of_operation hbareLeft hspell
      exact ⟨rfl, and_congr (hleft.above hfirst hbareLeft operator.pull)
        (hright.above hsecond hbareRight operator.rightLevel)⟩
  | _ => cases hroot

/-- A chain is well grouped when its links are, none of them below the operator. -/
theorem wellGrouped_iff_links {operator : BinaryOperator} (hchains : operator.chains = true)
    (tree : Expr) :
    (tree.WellGrouped ∧ operator.pull ≤ tree.level) ↔
      ∀ link ∈ links operator tree, link.WellGrouped ∧ operator.pull ≤ link.level := by
  fun_induction links operator tree with
  | case1 left right ihleft ihright =>
      have hright : operator.rightLevel = operator.pull := if_pos hchains
      rw [List.forall_mem_append, ← ihleft, ← ihright, wellGrouped_binary, hright]
      exact and_iff_left le_rfl
  | case2 | case3 => simp

theorem wellGrouped_iff_of_paired {others : List Expr} (bound : Nat)
    (hitems : ∀ item ∈ items, Settled item)
    (hpaired : List.Forall₂ (fun item other => item.spell = other.spell ∧ item.bare = other.bare)
      items others) :
    (∀ item ∈ items, item.WellGrouped ∧ bound ≤ item.level) ↔
      ∀ other ∈ others, other.WellGrouped ∧ bound ≤ other.level := by
  induction hpaired with
  | nil => exact Iff.rfl
  | cons hpair _ ih =>
      obtain ⟨hitem, hitems⟩ := List.forall_mem_cons.mp hitems
      rw [List.forall_mem_cons, List.forall_mem_cons]
      exact and_congr (hitem.above hpair.1 hpair.2 bound) (ih hitems)

theorem Settled.chain {operator : BinaryOperator} (hchains : operator.chains = true)
    (hlinks : ∀ link ∈ links operator (.binary operator left right), Settled link) :
    Settled (.binary operator left right) := by
  intro other hspell hbare
  have hroot := ctorIdx_eq hspell hbare
  cases other with
  | binary own first second =>
      obtain rfl := operator_eq_of_bare hbare
      have hpaired : List.Forall₂
          (fun item other => item.spell = other.spell ∧ item.bare = other.bare)
          (links operator (.binary operator left right))
          (links operator (.binary operator first second)) := by
        apply links_paired hchains (fun _ => ne_of_mem_links) (fun _ => ne_of_mem_links)
        · rw [spellLinks_links, spellLinks_links, hspell]
        · rw [← links_bare hchains, ← links_bare hchains, hbare]
      have hwhole := wellGrouped_iff_of_paired operator.pull hlinks hpaired
      rw [← wellGrouped_iff_links hchains, ← wellGrouped_iff_links hchains] at hwhole
      exact ⟨rfl, by simpa [level] using hwhole⟩
  | _ => cases hroot

theorem settledList_nil : SettledList [] := by
  intro others _ hbare
  cases others with
  | nil => exact Iff.rfl
  | cons first rest => cases hbare

theorem settledList_singleton (hitem : Settled operand) : SettledList [operand] := by
  intro others hspell hbare
  match others with
  | [] => cases hbare
  | [other] =>
      exact and_congr (hitem other hspell (List.cons.inj hbare).1).2 Iff.rfl
  | first :: second :: rest => cases (List.cons.inj hbare).2

theorem SettledList.cons {second : Expr} (hitem : Settled operand)
    (hitems : SettledList (second :: items)) : SettledList (operand :: second :: items) := by
  intro others hspell hbare
  match others with
  | [] => cases hbare
  | [other] => cases (List.cons.inj hbare).2
  | first :: next :: rest =>
      obtain ⟨hfirst, hrest⟩ := List.cons.inj hbare
      obtain ⟨hspellFirst, hspellRest⟩ :=
        append_inj_of_weight hspell (weight_eq_of_bare_eq hfirst) rfl rfl
      exact and_congr (hitem first hspellFirst hfirst).2
        (hitems (next :: rest) (List.cons.inj hspellRest).2 hrest)

/-- A tree is settled when its constructor makes bare trees only. -/
theorem settled_of_bare_eq {tree : Expr}
    (htree : ∀ other : Expr, tree.ctorIdx = other.ctorIdx → other.bare = other) :
    Settled tree := by
  intro other hspell hbare
  have hsame : tree = other := by
    calc
      tree = tree.bare := (htree tree rfl).symm
      _ = other.bare := hbare
      _ = other := htree other (ctorIdx_eq hspell hbare)
  rw [hsame]
  exact ⟨rfl, Iff.rfl⟩

theorem settled_column (table : Option String) (name : String) : Settled (column table name) :=
  settled_of_bare_eq fun other hroot => by
    cases other with
    | column => rfl
    | _ => cases hroot

theorem settled_star (table : Option String) : Settled (star table) :=
  settled_of_bare_eq fun other hroot => by
    cases other with
    | star => rfl
    | _ => cases hroot

theorem settled_literal (value : Literal) : Settled (literal value) :=
  settled_of_bare_eq fun other hroot => by
    cases other with
    | literal => rfl
    | _ => cases hroot

/-- A tree that is no chain is its only link. -/
theorem Settled.alone {tree : Expr} (htree : Settled tree)
    (hbinary : ∀ operator left right, tree ≠ .binary operator left right) :
    Settled tree ∧ ∀ operator, ∀ link ∈ links operator tree, Settled link := by
  refine ⟨htree, fun operator link hlink => ?_⟩
  rw [links_of_ne (hbinary operator), List.mem_singleton] at hlink
  rwa [hlink]

mutual

/-- Spelling and bare form settle the grouping of every tree, and of its links. -/
theorem settled_and_links : ∀ tree : Expr,
    Settled tree ∧ ∀ operator, ∀ link ∈ links operator tree, Settled link
  | column table name => (settled_column table name).alone nofun
  | star table => (settled_star table).alone nofun
  | literal value => (settled_literal value).alone nofun
  | not operand => (settled_and_links operand).1.not.alone nofun
  | paren operand => (Settled.paren (settled_and_links operand).1).alone nofun
  | is operand truth negated =>
      ((settled_and_links operand).1.is truth negated).alone nofun
  | like operand pattern negated caseless =>
      ((settled_and_links operand).1.like (settled_and_links pattern).1 negated
        caseless).alone nofun
  | member operand values negated =>
      ((settled_and_links operand).1.member (settledList values) negated).alone nofun
  | call name arguments distinct => (Settled.call (settledList arguments) name distinct).alone nofun
  | window function partition =>
      ((settled_and_links function).1.window (settledList partition)).alone nofun
  | binary operator left right => by
      obtain ⟨hleft, hleftLinks⟩ := settled_and_links left
      obtain ⟨hright, hrightLinks⟩ := settled_and_links right
      have hparts : ∀ link ∈ links operator left ++ links operator right, Settled link :=
        List.forall_mem_append.mpr ⟨hleftLinks operator, hrightLinks operator⟩
      have hwhole : Settled (.binary operator left right) := by
        cases hoperator : operator.chains with
        | true => exact .chain hoperator (by rwa [links, if_pos rfl])
        | false => exact .binary hoperator hleft hright
      refine ⟨hwhole, fun other link hlink => ?_⟩
      rw [links] at hlink
      split at hlink
      · next hother => exact hparts link (hother ▸ hlink)
      · rwa [List.mem_singleton.mp hlink]

theorem settledList : ∀ items : List Expr, SettledList items
  | [] => settledList_nil
  | [only] => settledList_singleton (settled_and_links only).1
  | first :: second :: rest => .cons (settled_and_links first).1 (settledList (second :: rest))

end

/-- Of two trees of one spelling and one bare form, one is well grouped when the other
is. -/
theorem wellGrouped_iff_of_spell {tree other : Expr} (hspell : tree.spell = other.spell)
    (hbare : tree.bare = other.bare) : tree.WellGrouped ↔ other.WellGrouped :=
  ((settled_and_links tree).1 other hspell hbare).2

end TreeQuery.Sql.Expr
