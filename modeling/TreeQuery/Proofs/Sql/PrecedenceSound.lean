import Mathlib
import TreeQuery.Proofs.Sql.Spelling

/-!
# What is read is well grouped and spells its words

Whatever the reader by precedence takes from the front of the tokens is a well grouped
tree, and the tokens are its words and what is left behind them.
-/

namespace TreeQuery.Sql.Precedence

/-- The tokens are the words of a well grouped tree of at least a level, and the rest. -/
structure Spelled (level : Nat) (tokens : List Token) (read : Expr) (rest : List Token) :
    Prop where
  grouped : read.WellGrouped
  level : level ≤ read.level
  spell : tokens = read.spell ++ rest

/-- The tokens are the words of a list of well grouped trees, a closing parenthesis, and
the rest. -/
structure SpelledList (tokens : List Token) (read : List Expr) (rest : List Token) : Prop where
  grouped : Expr.AllGrouped read
  spell : tokens = Expr.spellList read ++ .mark .close :: rest

/-- What the readers give with some fuel is spelled by the tokens they take. -/
structure Faithful (fuel : Nat) : Prop where
  expr : ∀ {level : Nat} {tokens : List Token} {read : Expr} {rest : List Token}, level ≤ 5 →
    expr? fuel level tokens = some (read, rest) → Spelled level tokens read rest
  unit : ∀ {level : Nat} {tokens : List Token} {read : Expr} {rest : List Token}, level ≤ 5 →
    unit? fuel level tokens = some (read, rest) → Spelled level tokens read rest
  extend : ∀ {level : Nat} {left : Expr} {tokens : List Token} {read : Expr}
    {rest : List Token}, left.WellGrouped → level ≤ left.level →
      extend? fuel level left tokens = some (read, rest) →
        Spelled level (left.spell ++ tokens) read rest
  complete : ∀ {left : Expr} {operation : Operation} {tokens : List Token} {read : Expr}
    {rest : List Token}, left.WellGrouped → operation.level ≤ left.level →
      complete? fuel left operation tokens = some (read, rest) →
        Spelled operation.level (left.spell ++ (operation.words ++ tokens)) read rest
  items : ∀ {tokens : List Token} {read : List Expr} {rest : List Token},
    items? fuel tokens = some (read, rest) → read ≠ [] ∧ SpelledList tokens read rest
  arguments : ∀ {tokens : List Token} {read : List Expr} {rest : List Token},
    arguments? fuel tokens = some (read, rest) → SpelledList tokens read rest

variable {fuel level : Nat} {left read : Expr} {operation : Operation}
  {tokens rest : List Token}

theorem spelled_atom? (hread : atom? tokens = some (read, rest)) : Spelled 5 tokens read rest := by
  revert hread
  fun_cases atom? tokens with
  | case6 => exact nofun
  | _ => rintro ⟨⟩; exact ⟨trivial, le_rfl, rfl⟩

theorem distinct_eq (tokens : List Token) :
    (if (distinct tokens).1 then [.function "DISTINCT"] else []) ++ (distinct tokens).2 =
      tokens := by
  fun_cases distinct tokens with
  | case1 rest => rfl
  | case2 name rest hname => rfl
  | case3 => rfl

section Steps

variable (hbelow : ∀ smaller < fuel, Faithful smaller)
include hbelow

theorem spelled_expr? (hlevel : level ≤ 5) (hread : expr? fuel level tokens = some (read, rest)) :
    Spelled level tokens read rest := by
  revert hread
  fun_cases expr? fuel level tokens with
  | case1 => exact nofun
  | case2 fuel =>
      intro hread
      have hfuel := hbelow fuel fuel.lt_succ_self
      obtain ⟨⟨left, behind⟩, hunit, hextend⟩ := Option.bind_eq_some_iff.mp hread
      have hleft := hfuel.unit hlevel hunit
      have hwhole := hfuel.extend hleft.grouped hleft.level hextend
      rwa [← hleft.spell] at hwhole

theorem spelled_unit? (hlevel : level ≤ 5) (hread : unit? fuel level tokens = some (read, rest)) :
    Spelled level tokens read rest := by
  revert hread
  fun_cases unit? fuel level tokens with
  | case1 | case3 | case5 | case6 => exact nofun
  | case2 fuel level behind hnot =>
      intro hread
      obtain ⟨⟨operand, others⟩, hoperand, heq⟩ := Option.map_eq_some_iff.mp hread
      cases heq
      have hspelled := (hbelow fuel fuel.lt_succ_self).expr (Nat.le_add_left 3 2) hoperand
      exact ⟨⟨hspelled.grouped, hspelled.level⟩, hnot, congrArg _ hspelled.spell⟩
  | case4 fuel level behind inner others hinner =>
      rintro ⟨⟩
      have hspelled := (hbelow fuel fuel.lt_succ_self).expr (Nat.le_add_left 1 4) hinner
      refine ⟨hspelled.grouped, hlevel, ?_⟩
      rw [Expr.spell, parenthesized_append, hspelled.spell]
  | case7 fuel level name behind hname =>
      intro hread
      obtain ⟨⟨arguments, others⟩, harguments, heq⟩ := Option.map_eq_some_iff.mp hread
      cases heq
      have hspelled := (hbelow fuel fuel.lt_succ_self).arguments harguments
      refine ⟨⟨hname, hspelled.grouped⟩, hlevel, ?_⟩
      rw [Expr.spell, List.cons_append, parenthesized_append, List.append_assoc,
        ← hspelled.spell, distinct_eq]
  | case8 fuel =>
      intro hread
      have hatom := spelled_atom? hread
      exact ⟨hatom.grouped, hlevel.trans hatom.level, hatom.spell⟩

theorem spelled_extend? (hgrouped : left.WellGrouped) (hlevel : level ≤ left.level)
    (hread : extend? fuel level left tokens = some (read, rest)) :
    Spelled level (left.spell ++ tokens) read rest := by
  revert hread
  fun_cases extend? fuel level left tokens with
  | case1 => exact nofun
  | case2 | case4 => rintro ⟨⟩; exact ⟨hgrouped, hlevel, rfl⟩
  | case3 fuel level left tokens operation behind hoperation hbetween =>
      intro hread
      have hfuel := hbelow fuel fuel.lt_succ_self
      obtain ⟨⟨next, others⟩, hcomplete, hextend⟩ := Option.bind_eq_some_iff.mp hread
      have hnext := hfuel.complete hgrouped hbetween.2 hcomplete
      have hwhole := hfuel.extend hnext.grouped (hbetween.1.trans hnext.level) hextend
      rwa [← hnext.spell, ← Operation.words_of_read? hoperation] at hwhole

theorem spelled_complete? (hgrouped : left.WellGrouped) (hlevel : operation.level ≤ left.level)
    (hread : complete? fuel left operation tokens = some (read, rest)) :
    Spelled operation.level (left.spell ++ (operation.words ++ tokens)) read rest := by
  revert hread
  fun_cases complete? fuel left operation tokens with
  | case1 | case8 => exact nofun
  | case2 fuel left operator tokens =>
      intro hread
      obtain ⟨⟨right, others⟩, hright, heq⟩ := Option.map_eq_some_iff.mp hread
      cases heq
      have hpull : operator.pull + 1 ≤ 5 := by cases operator <;> decide
      have hspelled := (hbelow fuel fuel.lt_succ_self).expr hpull hright
      have hrightLevel : operator.rightLevel ≤ right.level := by
        rw [BinaryOperator.rightLevel]
        split
        · exact (Nat.le_succ _).trans hspelled.level
        · exact hspelled.level
      refine ⟨⟨⟨hgrouped, hlevel⟩, hspelled.grouped, hrightLevel⟩, le_rfl, ?_⟩
      rw [Expr.spell, List.append_assoc, List.append_assoc, ← hspelled.spell]
  | case3 fuel left truth negated tokens =>
      rintro ⟨⟩
      refine ⟨⟨hgrouped, hlevel⟩, le_rfl, ?_⟩
      rw [Expr.spell, List.append_assoc]
  | case4 fuel left negated caseless tokens =>
      intro hread
      obtain ⟨⟨pattern, others⟩, hpattern, heq⟩ := Option.map_eq_some_iff.mp hread
      cases heq
      have hspelled := (hbelow fuel fuel.lt_succ_self).expr le_rfl hpattern
      refine ⟨⟨⟨hgrouped, hlevel⟩, hspelled.grouped, hspelled.level⟩, le_rfl, ?_⟩
      rw [Expr.spell, List.append_assoc, List.append_assoc, ← hspelled.spell]
  | case5 fuel left negated behind =>
      intro hread
      obtain ⟨⟨values, others⟩, hvalues, heq⟩ := Option.map_eq_some_iff.mp hread
      cases heq
      obtain ⟨hvalues, hspelled⟩ := (hbelow fuel fuel.lt_succ_self).items hvalues
      refine ⟨⟨⟨hgrouped, hlevel⟩, hvalues, hspelled.grouped⟩, le_rfl, ?_⟩
      rw [Expr.spell, List.append_assoc, List.append_assoc, parenthesized_append,
        ← hspelled.spell]
  | case6 fuel left behind =>
      intro hread
      obtain ⟨⟨partition, others⟩, hpartition, heq⟩ := Option.map_eq_some_iff.mp hread
      cases heq
      obtain ⟨hpartition, hspelled⟩ := (hbelow fuel fuel.lt_succ_self).items hpartition
      refine ⟨⟨⟨hgrouped, hlevel⟩, hspelled.grouped⟩, le_rfl, ?_⟩
      rw [Expr.spell, List.append_assoc, List.append_assoc, parenthesized_append,
        List.isEmpty_eq_false_iff.mpr hpartition, if_neg Bool.false_ne_true, List.append_assoc,
        ← hspelled.spell]
      rfl
  | case7 fuel left behind =>
      rintro ⟨⟩
      refine ⟨⟨⟨hgrouped, hlevel⟩, trivial⟩, le_rfl, ?_⟩
      rw [Expr.spell, List.append_assoc, List.append_assoc, parenthesized_append]
      rfl

theorem spelled_items? {read : List Expr} (hread : items? fuel tokens = some (read, rest)) :
    read ≠ [] ∧ SpelledList tokens read rest := by
  revert hread
  fun_cases items? fuel tokens with
  | case1 | case4 => exact nofun
  | case2 fuel tokens item behind hitem =>
      intro hread
      have hfuel := hbelow fuel fuel.lt_succ_self
      obtain ⟨⟨others, after⟩, hothers, heq⟩ := Option.map_eq_some_iff.mp hread
      cases heq
      have hspelled := hfuel.expr (Nat.le_add_left 1 4) hitem
      obtain ⟨hne, hlist⟩ := hfuel.items hothers
      refine ⟨List.cons_ne_nil item others, ⟨hspelled.grouped, hlist.grouped⟩, ?_⟩
      obtain ⟨second, more, rfl⟩ := List.exists_cons_of_ne_nil hne
      rw [Expr.spellList, List.append_assoc, List.cons_append, ← hlist.spell, ← hspelled.spell]
  | case3 fuel tokens item behind hitem =>
      rintro ⟨⟩
      have hspelled := (hbelow fuel fuel.lt_succ_self).expr (Nat.le_add_left 1 4) hitem
      exact ⟨List.cons_ne_nil item [], ⟨hspelled.grouped, trivial⟩, hspelled.spell⟩

theorem spelled_arguments? {read : List Expr}
    (hread : arguments? fuel tokens = some (read, rest)) : SpelledList tokens read rest := by
  revert hread
  fun_cases arguments? fuel tokens with
  | case1 => exact nofun
  | case2 => rintro ⟨⟩; exact ⟨trivial, rfl⟩
  | case3 fuel => exact fun hread => ((hbelow fuel fuel.lt_succ_self).items hread).2

end Steps

theorem faithful (fuel : Nat) : Faithful fuel := by
  induction fuel using Nat.strong_induction_on with
  | h fuel hbelow =>
      exact ⟨spelled_expr? hbelow, spelled_unit? hbelow, spelled_extend? hbelow,
        spelled_complete? hbelow, spelled_items? hbelow, spelled_arguments? hbelow⟩

/-- What the words read as is well grouped and spells them. -/
theorem words_of_read? {read : Expr} {tokens : List Token} (hread : read? tokens = some read) :
    read.WellGrouped ∧ Reading.words tokens = read.spell := by
  rw [read?] at hread
  split at hread
  · next hexpr =>
      cases hread
      have hspelled := (faithful _).expr (Nat.le_add_left 1 4) hexpr
      exact ⟨hspelled.grouped, by rw [hspelled.spell, List.append_nil]⟩
  · cases hread

end TreeQuery.Sql.Precedence
