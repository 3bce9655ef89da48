import TreeQuery.Proofs.Sql.TokenText
import TreeQuery.Sql.Statement

/-!
# How statements are spaced

Whatever the parts of a statement are, its tokens may follow one another.  The parts are put
together so that each one begins with a blank, a line break or a parenthesis, or stands behind
one of these.
-/

namespace TreeQuery.Sql

/-- Tokens that may follow one another. -/
def Spaced (tokens : List Token) : Prop := tokens.IsChain Token.MayFollow

/-- Tokens that may follow one another and may stand behind any others. -/
def Attached (tokens : List Token) : Prop :=
  Spaced tokens ∧ ∀ token ∈ tokens.head?, token.isGap = true

section Spacing

variable {token : Token} {tokens others : List Token}

theorem Spaced.nil : Spaced [] := List.IsChain.nil

theorem Attached.nil : Attached [] := ⟨.nil, fun _ hnone => nomatch hnone⟩

theorem Spaced.single (token : Token) : Spaced [token] := List.IsChain.singleton token

/-- What begins with a gap stands behind any token. -/
theorem Attached.cons (hrest : Attached tokens) (token : Token) : Spaced (token :: tokens) :=
  List.isChain_cons.mpr ⟨fun _ hhead => .inr (.inl (hrest.2 _ hhead)), hrest.1⟩

theorem Spaced.cons_loose (hrest : Spaced tokens) (hloose : token.isLoose = true) :
    Spaced (token :: tokens) :=
  List.isChain_cons.mpr ⟨fun _ _ => .inl hloose, hrest⟩

theorem Spaced.cons_gap (hrest : Spaced tokens) (hloose : token.isLoose = true)
    (hgap : token.isGap = true) : Attached (token :: tokens) :=
  ⟨hrest.cons_loose hloose, by rintro _ ⟨⟩; exact hgap⟩

theorem Spaced.append (hfirst : Spaced tokens) (hrest : Attached others) :
    Spaced (tokens ++ others) :=
  List.isChain_append.mpr ⟨hfirst, hrest.1, fun _ _ _ hhead => .inr (.inl (hrest.2 _ hhead))⟩

theorem Attached.append (hfirst : Attached tokens) (hrest : Attached others) :
    Attached (tokens ++ others) := by
  refine ⟨hfirst.1.append hrest, ?_⟩
  cases tokens with
  | nil => exact hrest.2
  | cons first rest => exact hfirst.2

theorem Spaced.blank (hrest : Spaced tokens) : Attached (.blank :: tokens) :=
  hrest.cons_gap rfl rfl

/-- A token, a blank, and what follows. -/
theorem Spaced.word (hrest : Spaced tokens) (token : Token) : Spaced (token :: .blank :: tokens) :=
  hrest.blank.cons token

theorem Spaced.newline (hrest : Spaced tokens) : Attached (.newline :: tokens) :=
  hrest.cons_gap rfl rfl

theorem Spaced.comma (hrest : Spaced tokens) : Attached (.mark .comma :: tokens) :=
  hrest.cons_gap rfl rfl

theorem Spaced.parenthesized (htokens : Spaced tokens) : Attached (parenthesized tokens) :=
  (htokens.append (Spaced.nil.cons_gap rfl rfl)).cons_gap rfl rfl

theorem spaced_commaSeparated : ∀ {items : List (List Token)}, (∀ item ∈ items, Spaced item) →
    Spaced (commaSeparated items)
  | [], _ => .nil
  | [item], hitems => by
      rw [commaSeparated, List.intercalate_singleton]
      exact hitems item List.mem_cons_self
  | first :: second :: rest, hitems => by
      obtain ⟨hfirst, hrest⟩ := List.forall_mem_cons.mp hitems
      rw [commaSeparated, List.intercalate_cons_cons, List.append_assoc]
      exact hfirst.append (spaced_commaSeparated hrest).blank.1.comma

end Spacing

namespace Expr

variable {tokens : List Token}

theorem spaced_grouped (needed : Bool) (htokens : Spaced tokens) :
    Spaced (grouped needed tokens) := by
  rw [grouped]
  split
  · exact htokens.parenthesized.1
  · exact htokens

theorem spaced_negation (negated : Bool) (htokens : Spaced tokens) :
    Spaced (negation negated ++ tokens) := by
  cases negated with
  | false => exact htokens
  | true => exact htokens.word _

theorem spaced_lowered (htokens : Spaced tokens) : Spaced (lowered tokens) :=
  htokens.parenthesized.cons _

theorem spaced_tablePrefixed (table : Option String) (htokens : Spaced tokens) :
    Spaced (tablePrefixed table tokens) := by
  cases table with
  | none => exact htokens
  | some name =>
      have hdot : Spaced (.mark .dot :: tokens) := htokens.cons_loose rfl
      refine List.isChain_cons.mpr ⟨?_, hdot⟩
      rintro _ ⟨⟩
      exact .inr (.inr ⟨rfl, rfl⟩)

theorem spaced_truthTest (dialect : Dialect) (value : Truth) (negated : Bool) :
    Spaced (truthTest dialect value negated) := by
  have hword (keyword : Keyword) :
      Spaced ([.keyword .IS, .blank] ++ negation negated ++ [.keyword keyword]) := by
    rw [List.append_assoc]
    exact (spaced_negation negated (.single _)).word _
  have hnumber (truth : Bool) : Spaced [.mark .eq, .blank, .literal (.bool (truth != negated))] :=
    (Spaced.single _).word _
  unfold truthTest
  split
  · exact hword .NULL
  · exact hword .TRUE
  · exact hword .FALSE
  · exact hnumber true
  · exact hnumber false

mutual

/-- The tokens of every expression are spaced, by recursion on the expression. -/
theorem spaced_tokens (dialect : Dialect) : ∀ expression : Expr,
    Spaced (expression.tokens dialect)
  | .column table name => by
      rw [tokens]
      exact spaced_tablePrefixed table (.single _)
  | .literal value => by
      rw [tokens]
      exact .single _
  | .binary operator left right => by
      rw [tokens, List.append_assoc]
      have hleft := spaced_grouped (left.bindsWeakerThan operator) (spaced_tokens dialect left)
      have hright := spaced_grouped (right.bindsWeakerThan operator) (spaced_tokens dialect right)
      exact hleft.append (hright.word _).blank
  | .not operand => by
      rw [tokens]
      exact (spaced_grouped _ (spaced_tokens dialect operand)).word _
  | .call name arguments distinct => by
      rw [tokens]
      have harguments := spaced_commaSeparated (spaced_listTokens dialect arguments)
      cases distinct with
      | false => exact harguments.parenthesized.cons _
      | true => exact (harguments.word _).parenthesized.cons _
  | .member operand [] negated => by
      rw [tokens]
      exact ((((Spaced.single _).word _).blank).cons _)
  | .member operand (value :: values) negated => by
      rw [tokens]
      have hvalues := spaced_commaSeparated (spaced_listTokens dialect (value :: values))
      simp only [List.append_assoc]
      exact (spaced_tokens dialect operand).append
        (spaced_negation negated (hvalues.parenthesized.1.word _)).blank
  | .is operand value negated => by
      rw [tokens, List.append_assoc]
      exact (spaced_tokens dialect operand).append (spaced_truthTest dialect value negated).blank
  | .like operand pattern negated caseless => by
      have hoperand := spaced_tokens dialect operand
      have hpattern := spaced_tokens dialect pattern
      rw [tokens]
      split
      · simp only [List.append_assoc]
        exact (spaced_lowered hoperand).append
          (spaced_negation negated ((spaced_lowered hpattern).word _)).blank
      · simp only [List.append_assoc]
        exact hoperand.append (spaced_negation negated (hpattern.word _)).blank
  | .star table => by
      rw [tokens]
      exact spaced_tablePrefixed table (.single _)
  | .paren operand => by
      rw [tokens]
      exact (spaced_tokens dialect operand).parenthesized.1
  | .window function partition => by
      rw [tokens, List.append_assoc]
      have hpartition := spaced_commaSeparated (spaced_listTokens dialect partition)
      have hinner : Spaced ((if partition.isEmpty then [] else [.keyword .PARTITION_BY, .blank]) ++
          commaSeparated (listTokens dialect partition)) := by
        split
        · exact hpartition
        · exact hpartition.word _
      exact (spaced_tokens dialect function).append
        (hinner.parenthesized.1.word _).blank

theorem spaced_listTokens (dialect : Dialect) : ∀ (expressions : List Expr),
    ∀ item ∈ listTokens dialect expressions, Spaced item
  | [], _, hitem => by
      rw [listTokens] at hitem
      cases hitem
  | first :: rest, item, hitem => by
      rw [listTokens] at hitem
      rcases List.mem_cons.mp hitem with rfl | hitem
      · exact spaced_tokens dialect first
      · exact spaced_listTokens dialect rest item hitem

end

end Expr

/-! ## Queries -/

theorem attached_aliasTokens (aliasName : Option String) : Attached (aliasTokens aliasName) := by
  cases aliasName with
  | none => exact .nil
  | some name => exact ((Spaced.single _).word _).blank

theorem SelectItem.spaced_tokens (dialect : Dialect) (item : SelectItem) :
    Spaced (item.tokens dialect) :=
  (item.expression.spaced_tokens dialect).append (attached_aliasTokens item.aliasName)

theorem TableRef.spaced_tokens (table : TableRef) : Spaced table.tokens :=
  (attached_aliasTokens table.aliasName).cons _

theorem Join.spaced_tokens (dialect : Dialect) (join : Join) : Spaced (join.tokens dialect) := by
  have hcondition := ((join.condition.spaced_tokens dialect).word (.keyword .ON)).blank
  rw [Join.tokens, List.append_assoc, List.append_assoc]
  exact (((join.table.spaced_tokens.append hcondition).word _).word _)

theorem SortKey.spaced_tokens (dialect : Dialect) (key : SortKey) :
    Spaced (key.tokens dialect) := by
  refine (key.expression.spaced_tokens dialect).append ?_
  split
  · exact .nil
  · exact (Spaced.single _).blank
  · exact (Spaced.single _).blank

namespace Page

theorem spaced_limitTokens (count : Nat) : Spaced (limitTokens count) :=
  (Spaced.single _).word _

theorem spaced_offsetTokens (count : Nat) : Spaced (offsetTokens count) :=
  (Spaced.single _).word _

theorem spaced_tokens (dialect : Dialect) (page : Page) : Spaced (page.tokens dialect) := by
  unfold tokens
  split
  · rw [List.append_assoc]
    refine (spaced_offsetTokens _).append (Spaced.blank ?_)
    split
    · exact .single _
    · exact (((((Spaced.single _).word _).word _).word _).word _).word _
  · rw [List.append_assoc]
    exact (spaced_limitTokens _).append (spaced_offsetTokens _).blank
  · exact spaced_limitTokens _
  · exact ((spaced_offsetTokens _).word _).word _
  · exact spaced_offsetTokens _
  · exact .nil

end Page

namespace Query

/-- An item on a line of its own. -/
theorem attached_line {tokens : List Token} (htokens : Spaced tokens) :
    Attached ([.newline, .indent 1] ++ tokens) :=
  Spaced.newline (htokens.cons_loose rfl)

theorem attached_itemTokens (dialect : Dialect) (items : List SelectItem) :
    Attached (itemTokens dialect items) := by
  cases items with
  | nil => exact .nil
  | cons first rest =>
      have hrest : Attached (rest.flatMap fun item =>
          [.mark .comma, .newline, .indent 1] ++ item.tokens dialect) := by
        induction rest with
        | nil => exact .nil
        | cons item others ih =>
            exact (attached_line (item.spaced_tokens dialect)).1.comma.append ih
      exact (attached_line (first.spaced_tokens dialect)).append hrest

theorem attached_orderTokens (dialect : Dialect) (query : Query) :
    Attached (query.orderTokens dialect) := by
  unfold orderTokens
  split
  · split
    · exact (((Spaced.single _).word _).parenthesized.1.word _).newline
    · exact .nil
  · have hkeys : Spaced (commaSeparated (query.order.map (SortKey.tokens dialect))) := by
      refine spaced_commaSeparated fun item hitem => ?_
      obtain ⟨key, -, rfl⟩ := List.mem_map.mp hitem
      exact key.spaced_tokens dialect
    exact (hkeys.word _).newline

theorem spaced_tokens (dialect : Dialect) (query : Query) : Spaced (query.tokens dialect) := by
  have hjoins : Attached (query.joins.flatMap fun join => .newline :: join.tokens dialect) := by
    induction query.joins with
    | nil => exact .nil
    | cons join rest ih => exact (join.spaced_tokens dialect).newline.append ih
  have hitems := (Spaced.single (.keyword .SELECT)).append
    (attached_itemTokens dialect query.items)
  rw [tokens]
  refine Spaced.append (Spaced.append (Spaced.append (Spaced.append (hitems.append ?_) hjoins) ?_)
    (query.attached_orderTokens dialect)) ?_
  · cases query.table with
    | none => exact .nil
    | some table => exact (table.spaced_tokens.word _).newline
  · cases query.condition with
    | none => exact .nil
    | some condition => exact ((condition.spaced_tokens dialect).word _).newline
  · cases query.page with
    | none => exact .nil
    | some page => exact (page.spaced_tokens dialect).newline

end Query

/-! ## Changes -/

theorem attached_conditionTokens (dialect : Dialect) (condition : Option Expr) :
    Attached (conditionTokens dialect condition) := by
  cases condition with
  | none => exact .nil
  | some condition => exact ((condition.spaced_tokens dialect).word _).blank

/-- The rows of an insertion, each in parentheses and behind a comma. -/
theorem attached_rows (dialect : Dialect) : ∀ rows : List (List Expr),
    Attached ([Token.mark .comma].intercalate (rows.map fun row =>
      .blank :: parenthesized (commaSeparated (row.map (Expr.tokens dialect)))))
  | [] => .nil
  | row :: rest => by
      have hrow : Attached (.blank ::
          parenthesized (commaSeparated (row.map (Expr.tokens dialect)))) := by
        refine (spaced_commaSeparated fun item hitem => ?_).parenthesized.1.blank
        obtain ⟨value, -, rfl⟩ := List.mem_map.mp hitem
        exact value.spaced_tokens dialect
      have hrest := attached_rows dialect rest
      cases rest with
      | nil =>
          rw [List.map_singleton, List.intercalate_singleton]
          exact hrow
      | cons second others =>
          rw [List.map_cons, List.map_cons, List.intercalate_cons_cons, List.append_assoc]
          exact hrow.append hrest.1.comma

theorem Insert.spaced_tokens (dialect : Dialect) (insert : Insert) :
    Spaced (insert.tokens dialect) := by
  have hcolumns : Attached (if insert.columns.isEmpty then []
      else .blank :: parenthesized
        (commaSeparated (insert.columns.map fun column => [.identifier column]))) := by
    split
    · exact .nil
    · refine (spaced_commaSeparated fun item hitem => ?_).parenthesized.1.blank
      obtain ⟨column, -, rfl⟩ := List.mem_map.mp hitem
      exact .single _
  have hrows := attached_rows dialect insert.rows
  have hvalues := (hrows.cons (.keyword .VALUES)).blank
  rw [Insert.tokens, List.append_assoc, List.append_assoc]
  exact ((hcolumns.append hvalues).cons _).word _ |>.word _

theorem Update.spaced_tokens (dialect : Dialect) (update : Update) :
    Spaced (update.tokens dialect) := by
  have hcondition := attached_conditionTokens dialect update.condition
  rw [Update.tokens, List.append_assoc]
  refine (((Spaced.append ?_ hcondition).word _).word _).word _
  refine spaced_commaSeparated fun item hitem => ?_
  obtain ⟨assignment, -, rfl⟩ := List.mem_map.mp hitem
  exact ((assignment.2.spaced_tokens dialect).word _).word _

theorem Delete.spaced_tokens (dialect : Dialect) (delete : Delete) :
    Spaced (delete.tokens dialect) :=
  ((((attached_conditionTokens dialect delete.condition).cons _).word _).word _)

/-- The tokens of every statement may follow one another. -/
theorem Statement.spaced_tokens (dialect : Dialect) (statement : Statement) :
    Spaced (statement.tokens dialect) := by
  cases statement with
  | select query => exact query.spaced_tokens dialect
  | insert change => exact change.spaced_tokens dialect
  | update change => exact change.spaced_tokens dialect
  | delete change => exact change.spaced_tokens dialect

end TreeQuery.Sql
