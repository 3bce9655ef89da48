import TreeQuery.Proofs.Sql.Rendering
import TreeQuery.Proofs.Sql.Spacing

/-!
# Functions named by words

Names of functions are the one part of a statement that is written without quotes.  A statement
whose functions are named by words splits into its units again, and the functions that conditions
and columns need are.
-/

namespace TreeQuery.Sql

open Lexing

attribute [simp] Token.Worded

/-- Tokens among which every name of a function is a word. -/
def Worded (tokens : List Token) : Prop := ∀ token ∈ tokens, token.Worded

section Worded

variable {token : Token} {tokens others : List Token}

@[simp]
theorem worded_nil : Worded [] := fun _ hnone => nomatch hnone

@[simp]
theorem worded_cons : Worded (token :: tokens) ↔ token.Worded ∧ Worded tokens :=
  List.forall_mem_cons

@[simp]
theorem worded_append : Worded (tokens ++ others) ↔ Worded tokens ∧ Worded others :=
  List.forall_mem_append

@[simp]
theorem worded_parenthesized : Worded (parenthesized tokens) ↔ Worded tokens := by
  simp [parenthesized]

theorem worded_intercalate (hseparator : Worded tokens) : ∀ {items : List (List Token)},
    (∀ item ∈ items, Worded item) → Worded (tokens.intercalate items)
  | [], _ => worded_nil
  | [item], hitems => by
      rw [List.intercalate_singleton]
      exact hitems item List.mem_cons_self
  | first :: second :: rest, hitems => by
      obtain ⟨hfirst, hrest⟩ := List.forall_mem_cons.mp hitems
      rw [List.intercalate_cons_cons, worded_append, worded_append]
      exact ⟨⟨hfirst, hseparator⟩, worded_intercalate hseparator hrest⟩

theorem worded_flatMap {α : Type} {write : α → List Token} {entries : List α}
    (hentries : ∀ entry ∈ entries, Worded (write entry)) : Worded (entries.flatMap write) := by
  intro token htoken
  obtain ⟨entry, hentry, htoken⟩ := List.mem_flatMap.mp htoken
  exact hentries entry hentry token htoken

theorem worded_commaSeparated {items : List (List Token)} (hitems : ∀ item ∈ items, Worded item) :
    Worded (commaSeparated items) :=
  worded_intercalate (by simp) hitems

end Worded

namespace Expr

/-- In every dialect, the functions of an expression are named by words. -/
def Worded (expression : Expr) : Prop := ∀ dialect, Sql.Worded (expression.tokens dialect)

section Parts

variable {tokens : List Token}

@[simp]
theorem worded_grouped (needed : Bool) :
    Sql.Worded (grouped needed tokens) ↔ Sql.Worded tokens := by
  cases needed <;> simp [grouped]

@[simp]
theorem worded_negation (negated : Bool) : Sql.Worded (negation negated) := by
  cases negated <;> simp [negation]

@[simp]
theorem worded_lowered : Sql.Worded (lowered tokens) ↔ Sql.Worded tokens := by
  simp [lowered, Text.uppercase, Text.upperChar, isWord, beginsWord, continuesWord]

@[simp]
theorem worded_tablePrefixed (table : Option String) :
    Sql.Worded (tablePrefixed table tokens) ↔ Sql.Worded tokens := by
  cases table <;> simp [tablePrefixed]

@[simp]
theorem worded_truthTest (dialect : Dialect) (value : Truth) (negated : Bool) :
    Sql.Worded (truthTest dialect value negated) := by
  unfold truthTest
  split <;> simp

end Parts

theorem worded_column (table : Option String) (name : String) : (column table name).Worded := by
  intro dialect
  simp [tokens]

theorem worded_literal (value : Literal) : (literal value).Worded := by
  intro dialect
  simp [tokens]

theorem worded_binary {operator : BinaryOperator} {left right : Expr} (hleft : left.Worded)
    (hright : right.Worded) : (binary operator left right).Worded := by
  intro dialect
  cases operator <;>
    simp [tokens, BinaryOperator.token, hleft dialect, hright dialect]

theorem worded_listTokens (dialect : Dialect) {expressions : List Expr}
    (hexpressions : ∀ expression ∈ expressions, expression.Worded) :
    ∀ item ∈ listTokens dialect expressions, Sql.Worded item := by
  induction expressions with
  | nil => simp [listTokens]
  | cons first rest ih =>
      obtain ⟨hfirst, hrest⟩ := List.forall_mem_cons.mp hexpressions
      rw [listTokens]
      exact List.forall_mem_cons.mpr ⟨hfirst dialect, ih hrest⟩

theorem worded_countAll : (window countAll []).Worded := by
  intro dialect
  simp [tokens, listTokens, countAll, commaSeparated, Text.uppercase,
    Text.upperChar, isWord, beginsWord, continuesWord]

end Expr

theorem Scalar.worded {operand : Expr} (hoperand : Scalar operand) : operand.Worded := by
  cases hoperand with
  | column table name => exact Expr.worded_column _ _
  | literal constant => exact Expr.worded_literal constant

theorem Condition.worded {expression : Expr} (hcondition : Condition expression) :
    expression.Worded := by
  induction hcondition with
  | compare _ hleft hright => exact Expr.worded_binary hleft.worded hright.worded
  | is hoperand truth negated =>
      intro dialect
      simp [Expr.tokens, hoperand.worded dialect]
  | like hoperand hpattern negated caseless =>
      intro dialect
      rw [Expr.tokens]
      split <;> simp [hoperand.worded dialect, hpattern.worded dialect]
  | member hoperand constants negated =>
      intro dialect
      cases constants with
      | nil => cases negated <;> simp [Expr.tokens]
      | cons first rest =>
          have hconstants : ∀ constant ∈ (first :: rest).map Expr.literal, constant.Worded := by
            intro constant hconstant
            obtain ⟨value, -, rfl⟩ := List.mem_map.mp hconstant
            exact Expr.worded_literal value
          have hlist := worded_commaSeparated (Expr.worded_listTokens dialect hconstants)
          rw [List.map_cons] at hlist ⊢
          simp [Expr.tokens, hoperand.worded dialect, hlist]
  | and _ _ ihleft ihright => exact Expr.worded_binary ihleft ihright
  | or _ _ ihleft ihright => exact Expr.worded_binary ihleft ihright
  | not _ ih =>
      intro dialect
      simp [Expr.tokens, ih dialect]

/-! ## Statements -/

/-- In every dialect, the functions of a statement are named by words. -/
def Statement.Worded (statement : Statement) : Prop :=
  ∀ dialect, Sql.Worded (statement.tokens dialect)

@[simp]
theorem worded_aliasTokens (aliasName : Option String) : Sql.Worded (aliasTokens aliasName) := by
  cases aliasName <;> simp [aliasTokens]

@[simp]
theorem TableRef.worded_tokens (table : TableRef) : Sql.Worded table.tokens := by
  simp [TableRef.tokens]

@[simp]
theorem Page.worded_tokens (dialect : Dialect) (page : Page) :
    Sql.Worded (page.tokens dialect) := by
  unfold Page.tokens
  split
  · simp only [worded_append]
    refine ⟨by simp [offsetTokens, countToken], ?_⟩
    split <;> simp [countToken]
  all_goals simp [limitTokens, offsetTokens, countToken]

/-- The parts of a query in which functions occur have them named by words. -/
structure Query.WordedParts (query : Query) : Prop where
  items : ∀ item ∈ query.items, item.expression.Worded
  joins : ∀ join ∈ query.joins, join.condition.Worded
  condition : ∀ condition ∈ query.condition, condition.Worded
  order : ∀ key ∈ query.order, key.expression.Worded

theorem SelectItem.worded_tokens (dialect : Dialect) {item : SelectItem}
    (hitem : item.expression.Worded) : Sql.Worded (item.tokens dialect) := by
  simpa [SelectItem.tokens] using hitem dialect

theorem Query.worded_itemTokens (dialect : Dialect) {items : List SelectItem}
    (hitems : ∀ item ∈ items, item.expression.Worded) :
    Sql.Worded (itemTokens dialect items) := by
  cases items with
  | nil => exact worded_nil
  | cons first rest =>
      obtain ⟨hfirst, hrest⟩ := List.forall_mem_cons.mp hitems
      have hlines : Sql.Worded (rest.flatMap fun item =>
          [.mark .comma, .newline, .indent 1] ++ item.tokens dialect) :=
        worded_flatMap fun item hitem => by
          simpa using SelectItem.worded_tokens dialect (hrest item hitem)
      rw [itemTokens, worded_append, worded_append]
      exact ⟨⟨by simp, SelectItem.worded_tokens dialect hfirst⟩, hlines⟩

theorem Query.worded_orderTokens (dialect : Dialect) {query : Query}
    (horder : ∀ key ∈ query.order, key.expression.Worded) :
    Sql.Worded (query.orderTokens dialect) := by
  have hkeys : Sql.Worded (commaSeparated (query.order.map (SortKey.tokens dialect))) := by
    refine worded_commaSeparated fun item hitem => ?_
    obtain ⟨key, hkey, rfl⟩ := List.mem_map.mp hitem
    rw [SortKey.tokens, worded_append]
    refine ⟨horder key hkey dialect, ?_⟩
    split <;> simp
  unfold orderTokens
  split
  · split <;> simp
  · simpa using hkeys

theorem Query.WordedParts.worded {query : Query} (hparts : query.WordedParts) :
    (Statement.select query).Worded := by
  intro dialect
  have hitems := Query.worded_itemTokens dialect hparts.items
  have hjoins : Sql.Worded (query.joins.flatMap fun join => .newline :: join.tokens dialect) :=
    worded_flatMap fun join hjoin => by
      simpa [Join.tokens] using hparts.joins join hjoin dialect
  have horder := Query.worded_orderTokens dialect hparts.order
  simp only [Statement.tokens, Query.tokens, worded_append]
  refine ⟨⟨⟨⟨⟨⟨by simp, hitems⟩, ?_⟩, hjoins⟩, ?_⟩, horder⟩, ?_⟩
  · cases query.table <;> simp
  · cases hcondition : query.condition with
    | none => exact worded_nil
    | some condition => simpa using hparts.condition condition hcondition dialect
  · cases query.page <;> simp

theorem worded_conditionTokens (dialect : Dialect) {condition : Option Expr}
    (hcondition : ∀ expression ∈ condition, expression.Worded) :
    Sql.Worded (conditionTokens dialect condition) := by
  cases condition with
  | none => exact worded_nil
  | some condition => simpa [conditionTokens] using hcondition condition rfl dialect

theorem Insert.worded {insert : Insert}
    (hrows : ∀ row ∈ insert.rows, ∀ value ∈ row, value.Worded) :
    (Statement.insert insert).Worded := by
  intro dialect
  have hcolumns : Sql.Worded (commaSeparated (insert.columns.map fun column =>
      [Token.identifier column])) := by
    refine worded_commaSeparated fun item hitem => ?_
    obtain ⟨column, -, rfl⟩ := List.mem_map.mp hitem
    simp
  have hvalues : Sql.Worded ([Token.mark .comma].intercalate (insert.rows.map fun row =>
      .blank :: parenthesized (commaSeparated (row.map (Expr.tokens dialect))))) := by
    refine worded_intercalate (by simp) fun item hitem => ?_
    obtain ⟨row, hrow, rfl⟩ := List.mem_map.mp hitem
    have hcells : Sql.Worded (commaSeparated (row.map (Expr.tokens dialect))) := by
      refine worded_commaSeparated fun item hitem => ?_
      obtain ⟨value, hvalue, rfl⟩ := List.mem_map.mp hitem
      exact hrows row hrow value hvalue dialect
    simpa using hcells
  simp only [Statement.tokens, Insert.tokens, worded_append]
  refine ⟨⟨⟨by simp, ?_⟩, by simp⟩, hvalues⟩
  split
  · exact worded_nil
  · simpa using hcolumns

theorem Update.worded {update : Update}
    (hassignments : ∀ assignment ∈ update.assignments, assignment.2.Worded)
    (hcondition : ∀ condition ∈ update.condition, condition.Worded) :
    (Statement.update update).Worded := by
  intro dialect
  simp only [Statement.tokens, Update.tokens, worded_append]
  refine ⟨⟨by simp, ?_⟩, worded_conditionTokens dialect hcondition⟩
  refine worded_commaSeparated fun item hitem => ?_
  obtain ⟨assignment, hassignment, rfl⟩ := List.mem_map.mp hitem
  simpa using hassignments assignment hassignment dialect

theorem Delete.worded {delete : Delete}
    (hcondition : ∀ condition ∈ delete.condition, condition.Worded) :
    (Statement.delete delete).Worded := by
  intro dialect
  simpa [Statement.tokens, Delete.tokens] using
    worded_conditionTokens dialect hcondition

/-- The text of a statement whose functions are named by words splits into the units of its
tokens. -/
theorem Statement.Worded.lex_render {statement : Statement} (hworded : statement.Worded)
    (dialect : Dialect) :
    dialect.lex (statement.render dialect).toList =
      some ((statement.tokens dialect).flatMap (Token.lexemes dialect)) :=
  Sql.lex_render (statement.spaced_tokens dialect) (hworded dialect)

end TreeQuery.Sql
