import TreeQuery.Plan.Planner
import TreeQuery.Proofs.Runs

/-!
# How planning fails

When a bucket cannot be gone through, the request is at fault.  A statement is refused for
a fault of the request as well, or because an extension refuses its parts.
-/

namespace TreeQuery

open Extension (ReadExtension)

/-- Extensions fail in one kind of way only, whether they change a query or report on the
records that were read. -/
def ExtensionsFail (extensions : List (String × ReadExtension)) (kind : Failure → Prop) : Prop :=
  ∀ entry ∈ extensions,
    (∀ beacon parts failure, entry.2.adjust beacon parts = .error failure → kind failure) ∧
      ∀ beacon records failure, entry.2.report beacon records = .error failure → kind failure

theorem mem_of_lookup {κ ν : Type} [BEq κ] [LawfulBEq κ] {key : κ} {value : ν}
    {entries : List (κ × ν)} (hfound : List.lookup key entries = some value) :
    (key, value) ∈ entries := by
  obtain ⟨before, behind, rfl, -⟩ := List.lookup_eq_some_iff.mp hfound
  exact List.mem_append_right before List.mem_cons_self

/-- A name that does not resolve is a fault of the request. -/
theorem ofSchema_fails {α : Type} (step : Catalog.Lookup Catalog.SchemaError α) :
    FailsOnly (·.isRequestError = true) (step.adapt Failure.schema) :=
  .adapt step fun _ => rfl

namespace Plan

open Catalog (Schema)

theorem ClauseSet.push_fails {clauses : ClauseSet} {expression : Expression} {failure : Failure}
    (hpush : clauses.push expression = .error failure) : failure.isRequestError = true := by
  rw [push] at hpush
  split at hpush
  · split at hpush <;> cases hpush
  · obtain rfl := Except.error.inj hpush
    rfl

namespace Predicate

theorem truthTest_fails {name : String} {column : Sql.Expr} {value : Json} {negated : Bool}
    {failure : Failure} (htest : truthTest name column value negated = .error failure) :
    failure.isRequestError = true := by
  rw [truthTest] at htest
  split at htest
  · cases htest
  · obtain rfl := Except.error.inj htest
    rfl

theorem directNegation?_fails {name : String} {column : Sql.Expr} {operator : Operator}
    {failure : Failure} (hdirect : directNegation? name column operator = some (.error failure)) :
    failure.isRequestError = true := by
  unfold directNegation? at hdirect
  split at hdirect
  · exact truthTest_fails (Option.some.inj hdirect)
  all_goals cases hdirect

mutual

/-- An operator that becomes no predicate is malformed. -/
theorem ofOperator_fails {name : String} {column : Sql.Expr} :
    ∀ {operator : Operator} {failure : Failure},
      ofOperator name column operator = .error failure → failure.isRequestError = true
  | .compare _ _, _, hplanned => by cases hplanned
  | .is value, _, hplanned => by
      rw [ofOperator, map_error_iff] at hplanned
      exact truthTest_fails hplanned
  | .like _ _, _, hplanned => by cases hplanned
  | .set _, _, hplanned => by cases hplanned
  | .not operator, _, hplanned => by
      rw [ofOperator] at hplanned
      split at hplanned
      · next predicate hdirect =>
          rw [map_error_iff.mp hplanned] at hdirect
          exact directNegation?_fails hdirect
      · exact ofOperator_fails (map_error_iff.mp hplanned)
  | .range lower upper, _, hplanned => by
      rw [ofOperator] at hplanned
      rcases bind_error_iff.mp hplanned with hlower | ⟨first, -, hplanned⟩
      · exact ofBound_fails hlower
      · rcases bind_error_iff.mp hplanned with hupper | ⟨second, -, hnone⟩
        · exact ofBound_fails hupper
        · cases hnone
  | .sort _, _, hplanned => by
      rw [ofOperator] at hplanned
      obtain rfl := Except.error.inj hplanned
      rfl

theorem ofBound_fails {name : String} {column : Sql.Expr} :
    ∀ {bound : Option Operator} {failure : Failure},
      ofBound name column bound = .error failure → failure.isRequestError = true
  | none, _, hplanned => by cases hplanned
  | some operator, _, hplanned => by
      rw [ofBound] at hplanned
      exact ofOperator_fails hplanned

end

theorem combine_fails {path : Path}
    {operation : Option Sql.Expr → Option Sql.Expr → Option Sql.Expr}
    {results : List (Option Sql.Expr)} {failure : Failure}
    (hcombine : combine path operation results = .error failure) :
    failure.isRequestError = true := by
  unfold combine at hcombine
  split at hcombine
  · cases hcombine
  · obtain rfl := Except.error.inj hcombine
    rfl

theorem ofClause_fails (schema : Schema) (path : Path) (clause : Clause) :
    FailsOnly (·.isRequestError = true) (ofClause schema path clause) := by
  refine (ofSchema_fails _).bind fun column => ?_
  split
  · exact .pure _
  · next failure hoperator => exact .throw (ofOperator_fails hoperator)

theorem reduce_fails (schema : Schema) (path : Path) :
    ∀ (expression : Expression) (results : List (Option Sql.Expr)),
      FailsOnly (·.isRequestError = true) (reduce schema path results expression)
  | [], _ => .pure _
  | .clause clause :: rest, _ => by
      rw [reduce]
      exact (ofClause_fails schema path clause).bind fun _ => reduce_fails schema path rest _
  | .and :: rest, _ => by
      rw [reduce]
      exact (FailsOnly.liftExcept fun _ => combine_fails).bind fun _ =>
        reduce_fails schema path rest _
  | .or :: rest, _ => by
      rw [reduce]
      exact (FailsOnly.liftExcept fun _ => combine_fails).bind fun _ =>
        reduce_fails schema path rest _

theorem ofExpression_fails (schema : Schema) (path : Path) (expression : Expression) :
    FailsOnly (·.isRequestError = true) (ofExpression schema path expression) := by
  rw [ofExpression]
  split
  · exact .pure _
  · refine (reduce_fails schema path expression []).bind fun results => ?_
    split
    · exact .pure _
    · exact .throw rfl

end Predicate

namespace SortKeys

theorem ofClause_fails (schema : Schema) (path : Path) (clause : Clause) :
    FailsOnly (·.isRequestError = true) (ofClause schema path clause) := by
  refine (ofSchema_fails _).bind fun column => ?_
  split
  · exact .pure _
  · exact .throw rfl

theorem ofExpression_fails (schema : Schema) (path : Path) : ∀ expression : Expression,
    FailsOnly (·.isRequestError = true) (ofExpression schema path expression)
  | [] => .pure _
  | .clause clause :: rest => by
      rw [ofExpression_clause]
      exact (ofClause_fails schema path clause).bind fun _ =>
        (ofExpression_fails schema path rest).bind fun _ => .pure _
  | .and :: rest => by
      rw [ofExpression_and]
      exact ofExpression_fails schema path rest
  | .or :: _ => .throw rfl

end SortKeys

mutual

/-- Where a bucket cannot be gone through, the request is at fault. -/
theorem gather_fails (schema : Schema) : ∀ (path : Path) (bucket : Bucket),
    FailsOnly (·.isRequestError = true) (gather schema path bucket)
  | path, ⟨name, _, _, elements⟩ => by
      rw [gather]
      refine (gatherElements_fails schema path name elements {} {}).bind
        fun ⟨gathered, clauses⟩ => ?_
      exact (Predicate.ofExpression_fails _ _ _).bind fun _ =>
        (SortKeys.ofExpression_fails _ _ _).bind fun _ => .pure _

theorem gatherElements_fails (schema : Schema) (path : Path) (name : String) :
    ∀ (elements : List Element) (gathered : Gathered) (clauses : ClauseSet),
      FailsOnly (·.isRequestError = true)
        (gatherElements schema path name gathered clauses elements)
  | [], _, _ => .pure _
  | .item (.column _) :: rest, _, _ => by
      rw [gatherElements]
      exact (ofSchema_fails _).bind fun _ =>
        gatherElements_fails schema path name rest _ _
  | .item (.row _) :: rest, _, _ => by
      rw [gatherElements]
      split
      · exact .bind (.throw rfl) fun _ => gatherElements_fails schema path name rest _ _
      · exact gatherElements_fails schema path name rest _ _
  | .bucket nested :: rest, _, _ => by
      rw [gatherElements]
      refine (ofSchema_fails _).bind fun join => ?_
      split
      · exact gatherElements_fails schema path name rest _ _
      · exact (gather_fails schema _ nested).bind fun _ =>
          gatherElements_fails schema path name rest _ _
  | .clause _ :: rest, _, _ => by
      rw [gatherElements]
      exact (FailsOnly.liftExcept fun _ => ClauseSet.push_fails).bind fun _ =>
        gatherElements_fails schema path name rest _ _
  | .slice (.limit _) :: rest, _, _ | .slice (.offset _) :: rest, _, _ | .total :: rest, _, _
  | .beacon _ :: rest, _, _ => by
      rw [gatherElements]
      exact gatherElements_fails schema path name rest _ _

end

variable {kind : Failure → Prop}

theorem adjustParts_fails {extensions : List (String × ReadExtension)}
    (hextensions : ExtensionsFail extensions kind) :
    ∀ (beacons : List Beacon) (parts : SelectParts) (failure : Failure),
      adjustParts extensions beacons parts = .error failure → kind failure
  | [], _, _, hadjust => by cases hadjust
  | beacon :: rest, parts, failure, hadjust => by
      rw [adjustParts] at hadjust
      split at hadjust
      · exact adjustParts_fails hextensions rest parts failure hadjust
      · next extension hfound =>
          rcases bind_error_iff.mp hadjust with hfailed | ⟨adjusted, -, hrest⟩
          · exact (hextensions _ (mem_of_lookup hfound)).1 beacon parts failure hfailed
          · exact adjustParts_fails hextensions rest adjusted failure hrest

namespace Planner

variable (planner : Planner)

theorem tableAt_fails (path : Path) :
    FailsOnly (·.isRequestError = true) (planner.tableAt path) :=
  ofSchema_fails _

theorem checkColumn_fails (path : Path) (column : String) :
    FailsOnly (·.isRequestError = true) (planner.checkColumn path column) :=
  (ofSchema_fails _).bind fun _ => .pure _

theorem change_fails (bucket : Bucket) (path : Path) (gathered : Gathered) :
    FailsOnly (·.isRequestError = true) (planner.change bucket path gathered) := by
  rw [change]
  split
  · exact .throw rfl
  · exact .throw rfl
  · exact ((planner.tableAt_fails path).bind fun _ => .pure _).map
  · exact ((FailsOnly.forM (planner.checkColumn_fails path)).bind fun _ =>
      (planner.tableAt_fails path).bind fun _ => .pure _).map
  · exact ((planner.tableAt_fails path).bind fun _ =>
      (FailsOnly.forM fun _ => planner.checkColumn_fails path _).bind fun _ => .pure _).map
  · exact .throw rfl

theorem selection_fails (hrequest : ∀ failure, failure.isRequestError = true → kind failure)
    (hextensions : ExtensionsFail planner.extensions kind) (bucket : Bucket) (path : Path)
    (gathered : Gathered) : FailsOnly kind (planner.selection bucket path gathered) := by
  have hparts : FailsOnly kind (planner.parts path gathered) :=
    ((planner.tableAt_fails path).mono hrequest).bind fun _ =>
      .liftExcept (adjustParts_fails hextensions _ _)
  rw [selection]
  split
  · exact (FailsOnly.throw (hrequest _ rfl)).bind fun _ => hparts.bind fun _ => .pure _
  · exact hparts.bind fun _ => .pure _

/-- A bucket is refused a statement for a fault of the request, or because an extension
refuses the parts of its query. -/
theorem build_fails (hrequest : ∀ failure, failure.isRequestError = true → kind failure)
    (hextensions : ExtensionsFail planner.extensions kind) (bucket : Bucket) :
    FailsOnly kind (planner.build bucket) := by
  rw [build]
  refine ((gather_fails planner.schema _ bucket).mono hrequest).bind fun gathered => ?_
  split
  · exact (planner.selection_fails hrequest hextensions bucket _ gathered).map
  · exact (planner.change_fails bucket _ gathered).mono hrequest

end Planner

end Plan

end TreeQuery
