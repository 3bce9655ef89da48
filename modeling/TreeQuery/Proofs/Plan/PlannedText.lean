import TreeQuery.Extension.Stock
import TreeQuery.Proofs.Plan.FilterMeaning
import TreeQuery.Proofs.Plan.Statements
import TreeQuery.Proofs.Sql.Wording

/-!
# Planned statements split into their units

Whatever names and values a request brings along, the text of its statement is read in every
dialect as the units that were written.  All functions in a planned statement are named by words,
because gathering finds columns and conditions only.
-/

namespace TreeQuery.Plan

open Catalog (Memo Schema)
open Extension (ReadExtension)
open Sql (Condition Statement)

variable {schema : Schema} {path : Path} {memo after : Memo}

/-! ## Conditions and sort keys -/

theorem Predicate.ofExpression_condition {expression : Expression} {predicate : Option Sql.Expr}
    (hrun : Succeeds (ofExpression schema path expression) memo predicate after) :
    ∀ found ∈ predicate, Condition found := by
  rcases ofExpression_succeeds hrun with ⟨rfl, -⟩ | hreduce
  · exact fun _ hnone => nomatch hnone
  · have hfinal := (reduce_succeeds .refl hreduce (by simp [AreConditions])).1
    exact hfinal predicate (List.mem_singleton_self predicate)

theorem SortKeys.ofExpression_worded {expression : Expression} {keys : List Sql.SortKey}
    (hrun : Succeeds (ofExpression schema path expression) memo keys after) :
    ∀ key ∈ keys, key.expression.Worded := by
  replace hrun := ofExpression_run hrun
  induction hrun with
  | nil => exact fun _ hnone => absurd hnone List.not_mem_nil
  | clause hclause _ ih =>
      obtain ⟨column, direction, -, -, rfl⟩ := ofClause_run hclause
      exact List.forall_mem_cons.mpr ⟨Sql.Expr.worded_column _ _, ih⟩
  | and _ ih => exact ih

/-! ## What is gathered -/

namespace Gathered

/-- In what was gathered, functions are named by words. -/
structure Worded (gathered : Gathered) : Prop where
  columns : ∀ item ∈ gathered.columns, item.expression.Worded
  joins : ∀ known ∈ gathered.joins, known.join.condition.Worded
  conditions : ∀ condition ∈ gathered.conditions, condition.Worded
  order : ∀ key ∈ gathered.order, key.expression.Worded

theorem worded_empty : Worded {} where
  columns := fun _ hnone => nomatch hnone
  joins := fun _ hnone => nomatch hnone
  conditions := fun _ hnone => nomatch hnone
  order := fun _ hnone => nomatch hnone

variable {gathered below : Gathered}

theorem mem_withJoin {joins : List KnownJoin} {known other : KnownJoin}
    (hmem : other ∈ withJoin joins known) : other ∈ joins ∨ other = known := by
  unfold withJoin at hmem
  split at hmem
  · exact .inl hmem
  · simpa using hmem

theorem mem_foldl_withJoin {joins : List KnownJoin} {other : KnownJoin} :
    ∀ {present : List KnownJoin}, other ∈ joins.foldl withJoin present →
      other ∈ present ∨ other ∈ joins := by
  induction joins with
  | nil => exact fun hmem => .inl hmem
  | cons known rest ih =>
      intro present hmem
      rcases ih hmem with hmem | hmem
      · rcases mem_withJoin hmem with hmem | rfl
        · exact .inl hmem
        · exact .inr List.mem_cons_self
      · exact .inr (List.mem_cons_of_mem _ hmem)

theorem Worded.addJoin (hgathered : gathered.Worded) {known : KnownJoin}
    (hknown : known.join.condition.Worded) : (gathered.addJoin known).Worded := by
  rw [addJoin_eq]
  refine ⟨hgathered.columns, fun other hother => ?_, hgathered.conditions, hgathered.order⟩
  rcases mem_withJoin hother with hother | rfl
  · exact hgathered.joins other hother
  · exact hknown

theorem Worded.absorb (hgathered : gathered.Worded) (hbelow : below.Worded) :
    (gathered.absorb below).Worded := by
  rw [absorb_eq]
  refine ⟨?_, fun other hother => ?_, ?_, ?_⟩
  · exact List.forall_mem_append.mpr ⟨hgathered.columns, hbelow.columns⟩
  · rcases mem_foldl_withJoin hother with hother | hother
    · exact hgathered.joins other hother
    · exact hbelow.joins other hother
  · exact List.forall_mem_append.mpr ⟨hgathered.conditions, hbelow.conditions⟩
  · exact List.forall_mem_append.mpr ⟨hgathered.order, hbelow.order⟩

end Gathered

theorem joinOf?_worded {childPath : Path} {join : KnownJoin}
    (hrun : Succeeds (joinOf? schema path childPath) memo (some join) after) :
    join.join.condition.Worded := by
  cases joinOf?_run hrun with
  | joined =>
      exact Sql.Expr.worded_binary (Sql.Expr.worded_column _ _) (Sql.Expr.worded_column _ _)

theorem gatherClauses_worded {gathered result : Gathered} {clauses : ClauseSet}
    (hgathered : gathered.Worded)
    (hrun : Succeeds (gatherClauses schema path gathered clauses) memo result after) :
    result.Worded := by
  obtain ⟨condition, order, middle, hcondition, horder, rfl⟩ := gatherClauses_run hrun
  refine ⟨hgathered.columns, hgathered.joins, ?_, ?_⟩
  · refine List.forall_mem_append.mpr ⟨hgathered.conditions, fun found hfound => ?_⟩
    exact (Predicate.ofExpression_condition hcondition found
      (Option.mem_toList.mp hfound)).worded
  · exact List.forall_mem_append.mpr ⟨hgathered.order, SortKeys.ofExpression_worded horder⟩

theorem GatherRun.worded {elements : List Element} {gathered result : Gathered}
    {clauses final : ClauseSet}
    (hrun : GatherRun schema path elements gathered clauses memo result final after)
    (hgathered : gathered.Worded) : result.Worded := by
  induction hrun with
  | nil => exact hgathered
  | column _ _ ih =>
      refine ih { hgathered with columns := List.forall_mem_append.mpr ⟨hgathered.columns, ?_⟩ }
      rintro _ hitem
      rw [List.mem_singleton.mp hitem]
      exact Sql.Expr.worded_column _ _
  | joined hjoin _ hclauses _ ihnested ihrest =>
      have hbelow := gatherClauses_worded (ihnested Gathered.worded_empty) hclauses
      exact ihrest ((hgathered.addJoin (joinOf?_worded hjoin)).absorb hbelow)
  | deferred _ _ ih | clause _ _ ih => exact ih hgathered
  | row _ _ ih | limit _ ih | offset _ ih | total _ ih | beacon _ ih =>
      exact ih { hgathered with }

theorem gather_worded {bucket : Bucket} {gathered : Gathered}
    (hrun : Succeeds (gather schema path bucket) memo gathered after) : gathered.Worded := by
  obtain ⟨inner, clauses, middle, helements, hclauses⟩ := gather_run hrun
  exact gatherClauses_worded (helements.worded Gathered.worded_empty) hclauses

theorem Gathered.Worded.condition? {gathered : Gathered} (hgathered : gathered.Worded) :
    ∀ condition ∈ gathered.condition?, condition.Worded :=
  Sql.Expr.forall_mem_conjunction? Sql.Expr.worded_binary hgathered.conditions

/-! ## Extensions -/

/-- An extension of reads names functions by words when the parts that it is given do. -/
def KeepsWords (extension : ReadExtension) : Prop :=
  ∀ (beacon : Beacon) (parts adjusted : SelectParts), parts.query.WordedParts →
    extension.adjust beacon parts = .ok adjusted → adjusted.query.WordedParts

namespace Planner

variable {planner : Planner} {bucket : Bucket} {statement : Statement}

theorem parts_worded (hextensions : ∀ entry ∈ planner.extensions, KeepsWords entry.2)
    {gathered : Gathered} (hgathered : gathered.Worded) {parts : SelectParts}
    (hrun : Succeeds (planner.parts path gathered) memo parts after) :
    parts.query.WordedParts := by
  obtain ⟨table, -, hadjust⟩ := parts_run hrun
  refine adjustParts_keeps (fun parts => parts.query.WordedParts)
    (fun entry hentry beacon before adjusted hchange hbefore =>
      hextensions entry hentry beacon before adjusted hbefore hchange) hadjust ?_
  refine ⟨List.forall_mem_append.mpr ⟨hgathered.columns, fun item hitem => ?_⟩, ?_,
    hgathered.condition?, hgathered.order⟩
  · split at hitem
    · rw [List.mem_singleton.mp hitem]
      exact Sql.Expr.worded_countAll
    · cases hitem
  · intro join hjoin
    obtain ⟨known, hknown, rfl⟩ := List.mem_map.mp hjoin
    exact hgathered.joins known hknown

/-- The functions of a planned statement are named by words. -/
theorem build_worded (hextensions : ∀ entry ∈ planner.extensions, KeepsWords entry.2)
    (hrun : Succeeds (planner.build bucket) memo statement after) : statement.Worded := by
  obtain ⟨gathered, middle, hgather, hplans⟩ := build_plans hrun
  have hgathered := gather_worded hgather
  cases hplans with
  | select _ _ hparts => exact (parts_worded hextensions hgathered hparts).worded
  | delete _ _ hcondition hdelete =>
      obtain ⟨table, -, rfl⟩ := deletion_succeeds hdelete
      refine Sql.Delete.worded ?_
      rintro _ ⟨⟩
      exact hgathered.condition? _ hcondition
  | insert _ _ hinsert =>
      obtain ⟨table, _, -, rfl⟩ := insertion_succeeds hinsert
      refine Sql.Insert.worded fun row hrow value hvalue => ?_
      obtain ⟨record, -, rfl⟩ := List.mem_map.mp hrow
      obtain ⟨column, -, rfl⟩ := List.mem_map.mp hvalue
      exact Sql.Expr.worded_literal _
  | update _ _ hcondition hupdate =>
      obtain ⟨table, _, -, rfl⟩ := update_succeeds hupdate
      refine Sql.Update.worded (fun assignment hassignment => ?_) ?_
      · obtain ⟨field, -, rfl⟩ := List.mem_map.mp hassignment
        exact Sql.Expr.worded_literal _
      · rintro _ ⟨⟩
        exact hgathered.condition? _ hcondition

/-- In every dialect the text of a planned statement is read as exactly the units that were
written, whatever the names and values that a request brings along. -/
theorem lex_build (hextensions : ∀ entry ∈ planner.extensions, KeepsWords entry.2)
    (hrun : Succeeds (planner.build bucket) memo statement after) (dialect : Sql.Dialect) :
    dialect.lex (statement.render dialect).toList =
      some ((statement.tokens dialect).flatMap (Sql.Token.lexemes dialect)) :=
  (build_worded hextensions hrun).lex_render dialect

/-- A table whose names need every kind of quoting. -/
def quotedBooks : Schema where
  tables := [{ name := "bo\"ok]", columns := ["id", "ti`tle'"] }]
  graph := { tables := ["bo\"ok]"] }
  junctions := []

/-- A planner with an extension that takes the limit from its beacon. -/
def quotedPlanner : Planner where
  schema := quotedBooks
  extensions := [("limit", Extension.Stock.limit)]

/-- A title that tries to end its string, and a limit. -/
def injection : Bucket where
  name := "bo\"ok]"
  elements := [.item (.column "ti`tle'"),
    .clause [.clause ⟨"ti`tle'", .compare .eq (.string "\\'; DROP TABLE book; --")⟩],
    .beacon (.custom "limit" (.int 3))]

theorem keepsWords_limit : KeepsWords Extension.Stock.limit := by
  rintro beacon parts _ hparts ⟨⟩
  exact ⟨hparts.items, hparts.joins, hparts.condition, hparts.order⟩

theorem lex_build_quotedBooks :
    (∀ entry ∈ quotedPlanner.extensions, KeepsWords entry.2) ∧ ∃ statement after,
      Succeeds (quotedPlanner.build injection) {} statement after ∧
        Sql.Dialect.mysql.lex (statement.render .mysql).toList =
          some ((statement.tokens .mysql).flatMap (Sql.Token.lexemes .mysql)) := by
  have hextensions : ∀ entry ∈ quotedPlanner.extensions, KeepsWords entry.2 := by
    intro entry hentry
    rw [List.mem_singleton.mp hentry]
    exact keepsWords_limit
  have hrun : ∃ statement after,
      Succeeds (quotedPlanner.build injection) {} statement after := ⟨_, _, rfl⟩
  obtain ⟨statement, after, hrun⟩ := hrun
  exact ⟨hextensions, statement, after, hrun, lex_build hextensions hrun .mysql⟩

end Planner

end TreeQuery.Plan
