import TreeQuery.Proofs.Decimal.Layout
import TreeQuery.Proofs.Families
import TreeQuery.Sql.Statement

/-!
# One literal at one place

Expressions and statements that are the same but for one literal have the same tokens but
for one token, so their texts are the same but for the text of that literal.  An integer is
written as a literal in one of two ways, as a value or as a count of rows, and its text has the
digits of the integer exactly if the integer is below `2^63`.
-/

namespace TreeQuery.Sql

/-! ## Integers -/

/-- The literal of a count of rows, which is a signed word of 64 bits. -/
def countLiteral (count : Int) : Literal :=
  .int (Int.bmod count (Nat.pow 2 64))

/-- What an integer is in a request: a value, one of the two counts of a page, or a count that has
no effect. -/
inductive Place where
  | value | limit | offset | idle

namespace Place

/-- The literal that an integer becomes. -/
def literal : Place → Int → Literal
  | value, number => .ofJson (.int number)
  | limit, number | offset, number | idle, number => countLiteral number

variable {number : Int} {dialect : Dialect}

theorem render_countLiteral_iff (hlower : -(2 ^ 63) ≤ number) (hupper : number < 2 ^ 64) :
    (countLiteral number).render dialect = toString number ↔ number < 2 ^ 63 := by
  have htext : (countLiteral number).render dialect = toString number ↔
      Int.bmod number (Nat.pow 2 64) = number := Int.repr_inj
  rw [htext, Int.bmod_def]
  norm_num
  omega

theorem render_ofJson_iff (hlower : -(2 ^ 63) ≤ number) :
    (Literal.ofJson (.int number)).render dialect = toString number ↔ number < 2 ^ 63 := by
  have hpower : Int.pow 2 63 = 2 ^ 63 := rfl
  rw [Literal.ofJson, hpower]
  by_cases hsmall : number < 2 ^ 63
  · rw [if_pos ⟨hlower, hsmall⟩]
    exact iff_of_true rfl hsmall
  · rw [if_neg fun hword => hsmall hword.2]
    refine iff_of_false ?_ hsmall
    cases Double.ofInt? number with
    | some value => exact Decimal.Layout.render_ne_toString floatLayout value number
    | none =>
        intro hnull
        have hletter : 'N' ∈ (toString number).toList := by
          rw [← hnull]
          exact (by decide : 'N' ∈ "NULL".toList)
        exact absurd (Decimal.Layout.isDigit_of_mem_toString number 'N' hletter) (by decide)

/-- Of the integers that fit into 64 bits, signed or not, those that fit into a signed word are
written with their digits, and no other is. -/
theorem render_literal_iff (place : Place) (hlower : -(2 ^ 63) ≤ number)
    (hupper : number < 2 ^ 64) :
    (place.literal number).render dialect = toString number ↔ number < 2 ^ 63 := by
  cases place with
  | value => exact render_ofJson_iff hlower
  | limit | offset | idle => exact render_countLiteral_iff hlower hupper

end Place

/-! ## Tokens -/

variable {ι : Type} {literal : ι → Literal}

/-- Lists of tokens that are the same but for one literal. -/
abbrev TokenGap (literal : ι → Literal) (tokens : ι → List Token) : Prop :=
  Gap (fun i => Token.literal (literal i)) tokens

/-- The texts are the same but for the text of the literal. -/
theorem TokenGap.render {tokens : ι → List Token} (hgap : TokenGap literal tokens)
    (dialect : Dialect) :
    ∃ before behind : String, ∀ i,
      Sql.render dialect (tokens i) = before ++ (literal i).render dialect ++ behind := by
  obtain ⟨before, behind, rfl⟩ := hgap
  refine ⟨Sql.render dialect before, Sql.render dialect behind, fun i => ?_⟩
  calc Sql.render dialect (before ++ .literal (literal i) :: behind)
      = Sql.render dialect before ++ Sql.render dialect (.literal (literal i) :: behind) := by
        rw [Sql.render, List.map_append, String.join_append]
        rfl
    _ = Sql.render dialect before ++ ((literal i).render dialect ++ Sql.render dialect behind) := by
        rw [Sql.render, Sql.render, List.map_cons, String.join_cons]
        rfl
    _ = _ := (String.append_assoc ..).symm

theorem TokenGap.commaSeparated {parts : ι → List Token} {items : ι → List (List Token)}
    (hitems : Gap parts items) (hparts : TokenGap literal parts) :
    TokenGap literal fun i => Sql.commaSeparated (items i) :=
  hitems.intercalate hparts _

theorem TokenGap.parenthesized {tokens : ι → List Token} (hgap : TokenGap literal tokens) :
    TokenGap literal fun i => Sql.parenthesized (tokens i) :=
  (hgap.append_right _).cons _

/-! ## Expressions -/

/-- Expressions that are the same but for one literal, which is an operand or one of the values
of a list. -/
inductive Expr.Carries (literal : ι → Literal) : (ι → Expr) → Prop
  | literal : Carries literal fun i => .literal (literal i)
  | left {operands : ι → Expr} (hoperands : Carries literal operands) (operator : BinaryOperator)
      (right : Expr) : Carries literal fun i => .binary operator (operands i) right
  | right {operands : ι → Expr} (hoperands : Carries literal operands) (operator : BinaryOperator)
      (left : Expr) : Carries literal fun i => .binary operator left (operands i)
  | not {operands : ι → Expr} (hoperands : Carries literal operands) :
      Carries literal fun i => .not (operands i)
  | member (operand : Expr) (before behind : List Expr) (negated : Bool) :
      Carries literal fun i => .member operand (before ++ .literal (literal i) :: behind) negated

namespace Expr

theorem listTokens_eq_map (dialect : Dialect) (expressions : List Expr) :
    listTokens dialect expressions = expressions.map (tokens dialect) := by
  induction expressions with
  | nil => rw [listTokens, List.map_nil]
  | cons first rest ih => rw [listTokens, ih, List.map_cons]

theorem tokens_member (dialect : Dialect) (operand : Expr) {values : List Expr}
    (hvalues : values ≠ []) (negated : Bool) :
    (member operand values negated).tokens dialect =
      operand.tokens dialect ++ [.blank] ++ negation negated ++ [.keyword .IN, .blank] ++
        parenthesized (commaSeparated (values.map (tokens dialect))) := by
  cases values with
  | nil => exact absurd rfl hvalues
  | cons first rest => rw [tokens, listTokens_eq_map]

namespace Carries

variable {expressions : ι → Expr}

/-- Whether such an expression is put in parentheses does not depend on the literal. -/
theorem bindsWeakerThan (hcarries : Carries literal expressions) (parent : BinaryOperator) :
    ∃ weaker, ∀ i, (expressions i).bindsWeakerThan parent = weaker := by
  cases hcarries <;> exact ⟨_, fun _ => rfl⟩

theorem isAtomic (hcarries : Carries literal expressions) :
    ∃ atomic, ∀ i, (expressions i).isAtomic = atomic := by
  cases hcarries <;> exact ⟨_, fun _ => rfl⟩

theorem grouped {tokens : ι → List Token} (hgap : TokenGap literal tokens) (needed : Bool) :
    TokenGap literal fun i => Expr.grouped needed (tokens i) := by
  cases needed with
  | false => exact hgap
  | true => exact hgap.parenthesized

theorem tokens (hcarries : Carries literal expressions) (dialect : Dialect) :
    TokenGap literal fun i => (expressions i).tokens dialect := by
  induction hcarries with
  | literal =>
      simp only [Expr.tokens]
      exact .intro [] []
  | left hoperands operator right ih =>
      obtain ⟨weaker, hweaker⟩ := hoperands.bindsWeakerThan operator
      simp only [Expr.tokens, hweaker]
      exact ((grouped ih weaker).append_right _).append_right _
  | right hoperands operator left ih =>
      obtain ⟨weaker, hweaker⟩ := hoperands.bindsWeakerThan operator
      simp only [Expr.tokens, hweaker]
      exact (grouped ih weaker).append_left _
  | not hoperands ih =>
      obtain ⟨atomic, hatomic⟩ := hoperands.isAtomic
      simp only [Expr.tokens, hatomic]
      exact (grouped ih (!atomic)).append_left _
  | member operand before behind negated =>
      have hvalues (i : ι) : before ++ .literal (literal i) :: behind ≠ [] := by simp
      simp only [tokens_member dialect operand (hvalues _)]
      apply Gap.append_left
      apply TokenGap.parenthesized
      apply TokenGap.commaSeparated ((Gap.intro before behind).map (Expr.tokens dialect))
      simp only [Expr.tokens]
      exact .intro [] []

/-- A conjunction carries the literal of one of its conditions. -/
theorem conjunction? {lists : ι → List Expr} (hlists : Gap expressions lists)
    (hcarries : Carries literal expressions) :
    ∃ conditions, Carries literal conditions ∧
      ∀ i, Expr.conjunction? (lists i) = some (conditions i) := by
  have hrest (rest : List Expr) : ∀ {firsts : ι → Expr}, Carries literal firsts →
      Carries literal fun i => rest.foldl and (firsts i) := by
    induction rest with
    | nil => exact fun hfirsts => hfirsts
    | cons second others ih => exact fun hfirsts => ih (hfirsts.left .and second)
  obtain ⟨before, behind, rfl⟩ := hlists
  cases before with
  | nil => exact ⟨_, hrest behind hcarries, fun _ => rfl⟩
  | cons first others =>
      refine ⟨_, hrest behind (hcarries.right .and (others.foldl and first)), fun i => ?_⟩
      change some ((others ++ expressions i :: behind).foldl and first) = _
      rw [List.foldl_append, List.foldl_cons]
      rfl

end Carries

end Expr

/-! ## Statements -/

/-- Statements of one kind that are the same but for one literal, whatever the dialect. -/
structure Statement.Carries (literal : ι → Literal) (statements : ι → Statement) : Prop where
  kind : ∃ kind, ∀ i, (statements i).kind = kind
  tokens : ∀ dialect, TokenGap literal fun i => (statements i).tokens dialect

section Queries

variable {conditions : ι → Expr} {pages : ι → Page}

theorem Query.carries_condition (query : Query) (hcarries : Expr.Carries literal conditions) :
    Statement.Carries literal fun i =>
      .select { query with condition := some (conditions i) } := by
  refine ⟨⟨_, fun _ => rfl⟩, fun dialect => ?_⟩
  have horder (i : ι) : orderTokens dialect { query with condition := some (conditions i) } =
      orderTokens dialect query := rfl
  simp only [Statement.tokens, Query.tokens, horder]
  apply Gap.append_right
  apply Gap.append_right
  apply Gap.append_left
  exact (hcarries.tokens dialect).append_left _

theorem Query.carries_page (query : Query)
    (hpages : ∀ dialect, TokenGap literal fun i => (pages i).tokens dialect) :
    Statement.Carries literal fun i => .select { query with page := some (pages i) } := by
  refine ⟨⟨_, fun _ => rfl⟩, fun dialect => ?_⟩
  -- the sort order only asks whether there is a page
  have horder (i : ι) : orderTokens dialect { query with page := some (pages i) } =
      orderTokens dialect { query with page := some {} } := rfl
  simp only [Statement.tokens, Query.tokens, horder]
  apply Gap.append_left
  exact (hpages dialect).cons _

theorem Page.carries_limit (counts : ι → Nat) (offset : Option Nat) (dialect : Dialect) :
    TokenGap (fun i => countLiteral (counts i)) fun i =>
      Page.tokens dialect ⟨some (counts i), offset⟩ := by
  have hlimit : TokenGap (fun i => countLiteral (counts i)) fun i => limitTokens (counts i) :=
    .intro [Token.keyword .LIMIT, .blank] []
  cases dialect with
  | tsql =>
      simp only [Page.tokens]
      apply Gap.append_left
      exact .intro [Token.blank, .keyword .FETCH, .blank, .keyword .NEXT, .blank]
        [Token.blank, .keyword .ROWS, .blank, .keyword .ONLY]
  | _ =>
      cases offset with
      | none => exact hlimit
      | some skipped => exact (hlimit.append_right _).append_right _

theorem Page.carries_offset (limit : Option Nat) (counts : ι → Nat) (dialect : Dialect) :
    TokenGap (fun i => countLiteral (counts i)) fun i =>
      Page.tokens dialect ⟨limit, some (counts i)⟩ := by
  have hoffset : TokenGap (fun i => countLiteral (counts i)) fun i => offsetTokens (counts i) :=
    .intro [Token.keyword .OFFSET, .blank] []
  cases dialect with
  | tsql =>
      simp only [Page.tokens, Option.getD_some]
      exact (hoffset.append_right _).append_right _
  | sqlite =>
      cases limit with
      | none => exact hoffset.append_left _
      | some count => exact hoffset.append_left _
  | _ =>
      cases limit with
      | none => exact hoffset
      | some count => exact hoffset.append_left _

end Queries

section Changes

variable {expressions : ι → Expr}

theorem conditionTokens_gap (hcarries : Expr.Carries literal expressions) (dialect : Dialect) :
    TokenGap literal fun i => conditionTokens dialect (some (expressions i)) :=
  (hcarries.tokens dialect).append_left _

theorem Insert.carries (change : Insert) {cells : ι → List Expr}
    (hcells : Gap expressions cells) (hcarries : Expr.Carries literal expressions)
    (before behind : List (List Expr)) :
    Statement.Carries literal fun i =>
      .insert { change with rows := before ++ cells i :: behind } := by
  refine ⟨⟨_, fun _ => rfl⟩, fun dialect => ?_⟩
  have hrow : TokenGap literal fun i =>
      commaSeparated ((cells i).map (Expr.tokens dialect)) :=
    .commaSeparated (hcells.map _) (hcarries.tokens dialect)
  simp only [Statement.tokens, Insert.tokens]
  apply Gap.append_left
  exact ((Gap.intro before behind).map _).intercalate (hrow.parenthesized.cons .blank) _

theorem Update.carries_condition (change : Update) (hcarries : Expr.Carries literal expressions) :
    Statement.Carries literal fun i =>
      .update { change with condition := some (expressions i) } := by
  refine ⟨⟨_, fun _ => rfl⟩, fun dialect => ?_⟩
  simp only [Statement.tokens, Update.tokens]
  exact (conditionTokens_gap hcarries dialect).append_left _

theorem Update.carries_assignment (change : Update) (hcarries : Expr.Carries literal expressions)
    (before behind : List (String × Expr)) (column : String) :
    Statement.Carries literal fun i =>
      .update { change with assignments := before ++ (column, expressions i) :: behind } := by
  refine ⟨⟨_, fun _ => rfl⟩, fun dialect => ?_⟩
  have hassignment : TokenGap literal fun i =>
      [.identifier column, .blank, .mark .eq, .blank] ++ (expressions i).tokens dialect :=
    (hcarries.tokens dialect).append_left _
  simp only [Statement.tokens, Update.tokens]
  apply Gap.append_right
  apply Gap.append_left
  exact TokenGap.commaSeparated ((Gap.intro before behind).map _) hassignment

theorem Delete.carries_condition (change : Delete) (hcarries : Expr.Carries literal expressions) :
    Statement.Carries literal fun i =>
      .delete { change with condition := some (expressions i) } := by
  refine ⟨⟨_, fun _ => rfl⟩, fun dialect => ?_⟩
  simp only [Statement.tokens, Delete.tokens]
  exact (conditionTokens_gap hcarries dialect).append_left _

end Changes

end TreeQuery.Sql
