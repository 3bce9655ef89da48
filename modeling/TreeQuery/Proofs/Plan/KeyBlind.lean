import TreeQuery.Proofs.Plan.Building
import TreeQuery.Proofs.SideBySide

/-!
# Planning does not look at keys

Two requests may differ in the values that a column is selected by.  Whether a
statement is planned for them, of which kind it is, and with which failure planning
ends otherwise, is the same for both, and so is what planning remembers.
-/

namespace TreeQuery

/-! ## Requests up to keys -/

/-- The same term, or two that select by other values of one column. -/
inductive Term.UpToKeys : Term → Term → Prop
  | same (term : Term) : UpToKeys term term
  | keys (column : String) (values others : List Json) :
      UpToKeys (.clause ⟨column, .set values⟩) (.clause ⟨column, .set others⟩)

/-- Two expressions that differ in selected values only. -/
def Expression.UpToKeys (expression twin : Expression) : Prop :=
  List.Forall₂ Term.UpToKeys expression twin

/-- The same element, or two clauses that differ in selected values only. -/
inductive Element.UpToKeys : Element → Element → Prop
  | same (element : Element) : UpToKeys element element
  | clause {expression twin : Expression} (hexpression : expression.UpToKeys twin) :
      UpToKeys (.clause expression) (.clause twin)

/-- Two buckets that differ in selected values only. -/
structure Bucket.UpToKeys (bucket twin : Bucket) : Prop where
  step : bucket.step = twin.step
  elements : List.Forall₂ Element.UpToKeys bucket.elements twin.elements

theorem Expression.UpToKeys.refl (expression : Expression) : expression.UpToKeys expression :=
  List.forall₂_same.mpr fun term _ => .same term

theorem Expression.UpToKeys.categories_eq {expression twin : Expression}
    (hexpression : expression.UpToKeys twin) : expression.categories = twin.categories := by
  unfold Expression.categories Expression.clauses
  induction hexpression with
  | nil => rfl
  | @cons term other _ _ hterm _ ih =>
      cases hterm with
      | same _ => cases term <;> simpa [Term.clause?, List.filterMap_cons] using ih
      | keys column values others => simpa [Term.clause?, Operator.category] using ih

theorem Expression.UpToKeys.isEmpty_eq {expression twin : Expression}
    (hexpression : expression.UpToKeys twin) : expression.isEmpty = twin.isEmpty := by
  cases hexpression <;> rfl

theorem Expression.UpToKeys.combine {left right leftTwin rightTwin : Expression}
    (hleft : left.UpToKeys leftTwin) (hright : right.UpToKeys rightTwin) (marker : Term) :
    (Expression.combine left right marker).UpToKeys
      (Expression.combine leftTwin rightTwin marker) := by
  unfold Expression.combine
  rw [hleft.isEmpty_eq, hright.isEmpty_eq]
  split
  · exact hright
  · split
    · exact hleft
    · exact List.rel_append (List.rel_append hleft hright) (Expression.UpToKeys.refl [marker])

namespace Bucket.UpToKeys

variable {bucket twin : Bucket}

theorem refl (bucket : Bucket) : bucket.UpToKeys bucket :=
  ⟨rfl, List.forall₂_same.mpr fun element _ => .same element⟩

/-- What does not look into clauses sees the same elements. -/
theorem map_eq {β : Type} (htwins : bucket.UpToKeys twin) (see : Element → β)
    (hblind : ∀ expression other, see (.clause expression) = see (.clause other)) :
    bucket.elements.map see = twin.elements.map see := by
  have hmap : ∀ {elements others : List Element}, List.Forall₂ Element.UpToKeys elements others →
      elements.map see = others.map see := by
    intro elements others helements
    induction helements with
    | nil => rfl
    | cons helement _ ih =>
        rw [List.map_cons, List.map_cons, ih]
        cases helement with
        | same _ => rfl
        | clause _ => rw [hblind]
  exact hmap htwins.elements

theorem filterMap_eq {β : Type} (htwins : bucket.UpToKeys twin) (see : Element → Option β)
    (hblind : ∀ expression other, see (.clause expression) = see (.clause other)) :
    bucket.elements.filterMap see = twin.elements.filterMap see := by
  have hmap := congrArg (List.filterMap id) (htwins.map_eq see hblind)
  rwa [List.filterMap_map, List.filterMap_map] at hmap

theorem columns_eq (htwins : bucket.UpToKeys twin) : bucket.columns = twin.columns :=
  htwins.filterMap_eq ElementOf.column? fun _ _ => rfl

theorem isProjection_eq (htwins : bucket.UpToKeys twin) :
    bucket.isProjection = twin.isProjection := by
  have hmap := congrArg (List.any · id) (htwins.map_eq Bucket.readsData fun _ _ => rfl)
  rwa [List.any_map, List.any_map] at hmap

theorem rootPath_eq (htwins : bucket.UpToKeys twin) : bucket.rootPath = twin.rootPath := by
  rw [Bucket.rootPath, Bucket.rootPath, htwins.isProjection_eq, htwins.step]

theorem name_eq (htwins : bucket.UpToKeys twin) : bucket.name = twin.name :=
  congrArg Step.name htwins.step

end Bucket.UpToKeys

namespace Plan

open Catalog (Memo Schema)

variable {schema : Schema} {path : Path}

/-! ## Predicates and sort keys -/

/-- Both predicates are there, or neither is. -/
def SamePresence (predicate twin : Option Sql.Expr) : Prop :=
  predicate.isSome = twin.isSome

namespace Predicate

theorem both?_samePresence {left leftTwin right rightTwin : Option Sql.Expr}
    (hleft : SamePresence left leftTwin) (hright : SamePresence right rightTwin) :
    SamePresence (both? left right) (both? leftTwin rightTwin) := by
  cases left <;> cases leftTwin <;> cases right <;> cases rightTwin <;>
    simp_all [SamePresence, both?]

theorem either?_samePresence {left leftTwin right rightTwin : Option Sql.Expr}
    (hleft : SamePresence left leftTwin) (hright : SamePresence right rightTwin) :
    SamePresence (either? left right) (either? leftTwin rightTwin) := by
  cases left <;> cases leftTwin <;> cases right <;> cases rightTwin <;>
    simp_all [SamePresence, either?]

theorem combine_alike {operation : Option Sql.Expr → Option Sql.Expr → Option Sql.Expr}
    (hoperation : ∀ {left leftTwin right rightTwin}, SamePresence left leftTwin →
      SamePresence right rightTwin →
        SamePresence (operation left right) (operation leftTwin rightTwin))
    {results twins : List (Option Sql.Expr)} (hresults : List.Forall₂ SamePresence results twins) :
    SameOutcome (List.Forall₂ SamePresence) (combine path operation results)
      (combine path operation twins) := by
  rcases hresults with _ | ⟨hright, _ | ⟨hleft, hrest⟩⟩
  · exact .error _
  · exact .error _
  · exact .ok (.cons (hoperation hleft hright) hrest)

theorem reduce_alike {expression twin : Expression} (hexpression : expression.UpToKeys twin) :
    ∀ {results twins : List (Option Sql.Expr)}, List.Forall₂ SamePresence results twins →
      ∀ memo, EndsAlike (· = ·) (List.Forall₂ SamePresence) (reduce schema path results expression)
        (reduce schema path twins twin) memo memo := by
  induction hexpression with
  | nil => exact fun hresults memo => .pure hresults rfl
  | @cons term other rest restTwin hterm hrest ih =>
      intro results twins hresults memo
      cases hterm with
      | same term =>
          cases term with
          | clause clause =>
              rw [reduce, reduce]
              exact .bind_same fun _ middle => ih (.cons rfl hresults) middle
          | and =>
              rw [reduce, reduce]
              refine (EndsAlike.liftExcept (combine_alike both?_samePresence hresults) rfl).bind ?_
              rintro _ _ middle _ - - hresults rfl
              exact ih hresults middle
          | or =>
              rw [reduce, reduce]
              apply (EndsAlike.liftExcept (combine_alike either?_samePresence hresults) rfl).bind
              rintro _ _ middle _ - - hresults rfl
              exact ih hresults middle
      | keys name values others =>
          rw [reduce, reduce, ofClause, ofClause, bind_assoc, bind_assoc]
          refine .bind_same fun column middle => ?_
          simp only [ofOperator, pure_bind]
          have hpresence : SamePresence (some (member column.expression values false))
              (some (member column.expression others false)) := rfl
          exact ih (.cons hpresence hresults) middle

theorem ofExpression_alike {expression twin : Expression} (hexpression : expression.UpToKeys twin)
    (memo : Memo) : EndsAlike (· = ·) SamePresence (ofExpression schema path expression)
      (ofExpression schema path twin) memo memo := by
  rw [ofExpression, ofExpression, hexpression.isEmpty_eq]
  split
  · exact .pure rfl rfl
  · refine (reduce_alike hexpression .nil memo).bind ?_
    rintro results twins middle _ - - hresults rfl
    have hlength := hresults.length_eq
    rcases hresults with _ | ⟨hresult, _ | ⟨_, _⟩⟩
    · exact .throw _ rfl
    · exact .pure hresult rfl
    · dsimp only
      rw [hlength]
      exact .throw _ rfl

end Predicate

namespace SortKeys

theorem ofExpression_alike {expression twin : Expression} (hexpression : expression.UpToKeys twin) :
    ∀ memo, EndsAlike (· = ·) (· = ·) (ofExpression schema path expression)
      (ofExpression schema path twin) memo memo := by
  induction hexpression with
  | nil => exact fun memo => .refl (fun _ => rfl) _ memo
  | @cons term other rest restTwin hterm hrest ih =>
      intro memo
      cases hterm with
      | same term =>
          cases term with
          | clause clause =>
              rw [ofExpression_clause, ofExpression_clause]
              refine .bind_same fun key middle => ?_
              refine (ih middle).bind ?_
              rintro keys _ after _ - - rfl rfl
              exact .pure rfl rfl
          | and =>
              rw [ofExpression_and, ofExpression_and]
              exact ih memo
          | or => exact .throw _ rfl
      | keys column values others =>
          rw [ofExpression_clause, ofExpression_clause, ofClause, ofClause, bind_assoc, bind_assoc]
          exact .bind_same fun _ middle => .throw _ rfl

end SortKeys

/-! ## What is gathered -/

/-- Two collections of clauses that differ in selected values only. -/
structure ClauseSet.UpToKeys (clauses twin : ClauseSet) : Prop where
  filter : clauses.filter.UpToKeys twin.filter
  order : clauses.order.UpToKeys twin.order

theorem ClauseSet.UpToKeys.push {clauses twin : ClauseSet} {expression other : Expression}
    (hclauses : clauses.UpToKeys twin) (hexpression : expression.UpToKeys other) :
    SameOutcome ClauseSet.UpToKeys (clauses.push expression) (twin.push other) := by
  have hcategory : expression.category = other.category :=
    congrArg List.head? hexpression.categories_eq
  have huniform : expression.isUniform = other.isUniform := by
    unfold Expression.isUniform
    rw [hexpression.categories_eq]
  unfold ClauseSet.push
  rw [hcategory, huniform]
  split
  · split
    · exact .ok ⟨hclauses.filter.combine hexpression .and, hclauses.order⟩
    · exact .ok ⟨hclauses.filter, hclauses.order.combine hexpression .and⟩
    · exact .ok hclauses
  · exact .error _

namespace Gathered

/-- The same is asked for, under as many conditions. -/
inductive UpToConditions (gathered : Gathered) : Gathered → Prop
  | intro (conditions : List Sql.Expr)
      (hlength : gathered.conditions.length = conditions.length) :
      UpToConditions gathered { gathered with conditions }

theorem UpToConditions.addJoin {gathered twin : Gathered} (htwins : gathered.UpToConditions twin)
    (known : KnownJoin) : (gathered.addJoin known).UpToConditions (twin.addJoin known) := by
  obtain ⟨conditions, hlength⟩ := htwins
  rw [addJoin_eq, addJoin_eq]
  exact .intro conditions hlength

theorem absorb_withConditions (gathered below : Gathered) (conditions : List Sql.Expr) :
    absorb { gathered with conditions } below =
      { gathered.absorb below with conditions := conditions ++ below.conditions } := by
  rw [absorb_eq, absorb_eq gathered]

theorem UpToConditions.absorb {gathered twin : Gathered} (htwins : gathered.UpToConditions twin)
    (below : Gathered) : (gathered.absorb below).UpToConditions (twin.absorb below) := by
  obtain ⟨conditions, hlength⟩ := htwins
  rw [absorb_withConditions gathered below conditions]
  refine .intro _ ?_
  rw [absorb_eq, List.length_append, List.length_append, hlength]

theorem UpToConditions.condition? {gathered twin : Gathered}
    (htwins : gathered.UpToConditions twin) :
    SamePresence gathered.condition? twin.condition? := by
  obtain ⟨conditions, hlength⟩ := htwins
  unfold Gathered.condition? Sql.Expr.conjunction?
  cases hfirst : gathered.conditions <;> cases conditions <;> simp_all [SamePresence]

end Gathered

theorem gatherClauses_alike {gathered twin : Gathered} {clauses other : ClauseSet}
    (hgathered : gathered.UpToConditions twin) (hclauses : clauses.UpToKeys other) (memo : Memo) :
    EndsAlike (· = ·) Gathered.UpToConditions (gatherClauses schema path gathered clauses)
      (gatherClauses schema path twin other) memo memo := by
  obtain ⟨conditions, hlength⟩ := hgathered
  rw [gatherClauses, gatherClauses]
  refine (Predicate.ofExpression_alike hclauses.filter memo).bind ?_
  rintro condition conditionTwin middle _ - - hcondition rfl
  refine (SortKeys.ofExpression_alike hclauses.order middle).bind ?_
  rintro order _ after _ - - rfl rfl
  have hfilter : clauses.hasFilter = other.hasFilter := by
    unfold ClauseSet.hasFilter
    rw [hclauses.filter.isEmpty_eq]
  have hcount : condition.toList.length = conditionTwin.toList.length := by
    cases condition <;> cases conditionTwin <;> simp_all [SamePresence]
  rw [hfilter]
  refine .pure (.intro _ ?_) rfl
  rw [List.length_append, List.length_append, hlength, hcount]

/-- What was found in two lists of elements that differ in selected values only. -/
structure FoundAlike (found twin : Gathered × ClauseSet) : Prop where
  gathered : found.1.UpToConditions twin.1
  clauses : found.2.UpToKeys twin.2

section Elements

variable {found twin : Gathered × ClauseSet} {name : String}

theorem gatherElement_alike_of_clause {expression other : Expression}
    (hfound : FoundAlike found twin) (hexpression : expression.UpToKeys other) (memo : Memo) :
    EndsAlike (· = ·) FoundAlike
      (gatherElement schema path name found.1 found.2 (.clause expression))
      (gatherElement schema path name twin.1 twin.2 (.clause other)) memo memo := by
  rw [gatherElement, gatherElement]
  refine (EndsAlike.liftExcept (hfound.clauses.push hexpression) rfl).bind ?_
  rintro pushed pushedTwin middle _ - - hpushed rfl
  exact .pure ⟨hfound.gathered, hpushed⟩ rfl

/-- One element is gathered alike from what was found alike. -/
theorem gatherElement_alike {element other : Element} (helement : element.UpToKeys other)
    (hfound : FoundAlike found twin) (memo : Memo) :
    EndsAlike (· = ·) FoundAlike (gatherElement schema path name found.1 found.2 element)
      (gatherElement schema path name twin.1 twin.2 other) memo memo := by
  cases helement with
  | clause hexpression => exact gatherElement_alike_of_clause hfound hexpression memo
  | same _ =>
      obtain ⟨gathered, clauses⟩ := found
      obtain ⟨_, clausesTwin⟩ := twin
      obtain ⟨⟨conditions, hlength⟩, hclauses⟩ := hfound
      cases element with
      | clause expression =>
          exact gatherElement_alike_of_clause ⟨.intro conditions hlength, hclauses⟩
            (.refl expression) memo
      | item item =>
          cases item with
          | column column =>
              rw [gatherElement, gatherElement]
              exact .bind_same fun _ _ => .pure ⟨.intro conditions hlength, hclauses⟩ rfl
          | row row =>
              rw [gatherElement, gatherElement]
              split
              · exact .bind_same fun _ _ => .pure ⟨.intro conditions hlength, hclauses⟩ rfl
              · exact .pure ⟨.intro conditions hlength, hclauses⟩ rfl
      | bucket nested =>
          rw [gatherElement, gatherElement]
          refine .bind_same fun join _ => ?_
          cases join with
          | none => exact .pure ⟨.intro conditions hlength, hclauses⟩ rfl
          | some known =>
              have htwins : gathered.UpToConditions { gathered with conditions } :=
                .intro conditions hlength
              exact .bind_same fun below _ =>
                .pure ⟨(htwins.addJoin known).absorb below, hclauses⟩ rfl
      | slice slice =>
          cases slice <;> exact .pure ⟨.intro conditions hlength, hclauses⟩ rfl
      | total => exact .pure ⟨.intro conditions hlength, hclauses⟩ rfl
      | beacon beacon => exact .pure ⟨.intro conditions hlength, hclauses⟩ rfl

theorem gatherElements_alike {elements others : List Element}
    (helements : List.Forall₂ Element.UpToKeys elements others) (hfound : FoundAlike found twin)
    (memo : Memo) :
    EndsAlike (· = ·) FoundAlike (gatherElements schema path name found.1 found.2 elements)
      (gatherElements schema path name twin.1 twin.2 others) memo memo := by
  induction helements generalizing found twin memo with
  | nil =>
      rw [gatherElements, gatherElements]
      exact .pure hfound rfl
  | cons helement _ ih =>
      rw [gatherElements_cons, gatherElements_cons]
      refine (gatherElement_alike helement hfound memo).bind ?_
      rintro next nextTwin middle _ - - hnext rfl
      exact ih hnext middle

end Elements

theorem gather_alike {bucket twin : Bucket} (htwins : bucket.UpToKeys twin) (memo : Memo) :
    EndsAlike (· = ·) Gathered.UpToConditions (gather schema path bucket)
      (gather schema path twin) memo memo := by
  have hname := htwins.name_eq
  have helements := htwins.elements
  obtain ⟨name, qualifier, label, elements⟩ := bucket
  obtain ⟨other, otherQualifier, otherLabel, others⟩ := twin
  obtain rfl : name = other := hname
  rw [gather, gather]
  have hempty : FoundAlike ({}, {}) ({}, {}) := ⟨.intro [] rfl, ⟨.nil, .nil⟩⟩
  refine (gatherElements_alike helements hempty memo).bind ?_
  rintro found foundTwin middle _ - - hfound rfl
  exact gatherClauses_alike hfound.gathered hfound.clauses middle

/-! ## Statements -/

namespace Planner

variable {planner : Planner}

/-- Two statements of one kind. -/
def SameKind (statement twin : Sql.Statement) : Prop :=
  statement.kind = twin.kind

theorem selection_alike (hextensions : planner.extensions = []) {bucket twin : Bucket}
    (hname : bucket.name = twin.name) {gathered other : Gathered}
    (hgathered : gathered.UpToConditions other) (memo : Memo) :
    EndsAlike (· = ·) (fun _ _ => True) (planner.selection bucket path gathered)
      (planner.selection twin path other) memo memo := by
  obtain ⟨conditions, hlength⟩ := hgathered
  have hquery : ∀ memo, EndsAlike (· = ·) (fun _ _ => True)
      (SelectParts.query <$> planner.parts path gathered)
      (SelectParts.query <$> planner.parts path { gathered with conditions }) memo memo := by
    intro memo
    rw [parts, parts, hextensions, map_bind, map_bind]
    refine .bind_same fun table middle => ?_
    dsimp only
    rw [adjustParts_nil, adjustParts_nil]
    exact .pure trivial rfl
  rw [selection, selection, hname]
  dsimp only
  split
  · exact .bind_same fun _ middle => hquery middle
  · exact hquery memo

theorem change_alike {bucket twin : Bucket} (hname : bucket.name = twin.name)
    {gathered other : Gathered} (hgathered : gathered.UpToConditions other) (memo : Memo) :
    EndsAlike (· = ·) SameKind (planner.change bucket path gathered)
      (planner.change twin path other) memo memo := by
  have hcondition := hgathered.condition?
  obtain ⟨conditions, hlength⟩ := hgathered
  rw [change, change, hname]
  generalize Gathered.condition? { gathered with conditions } = second at hcondition ⊢
  generalize gathered.condition? = first at hcondition ⊢
  dsimp only
  have hkind : ∀ statement, SameKind statement statement := fun _ => rfl
  match first, second, hcondition with
  | none, none, _ => exact .refl hkind _ memo
  | some condition, some conditionTwin, _ =>
      cases gathered.hasFilter with
      | false =>
          match gathered.rows with
          | [] | _ :: _ => exact .refl hkind _ memo
      | true =>
          match gathered.rows with
          | [] =>
              dsimp only
              rw [deletion, deletion, map_bind, map_bind]
              exact .bind_same fun _ _ => .pure rfl rfl
          | [row] =>
              dsimp only
              rw [update, update, map_bind, map_bind]
              refine .bind_same fun _ _ => ?_
              rw [map_bind, map_bind]
              exact .bind_same fun _ _ => .pure rfl rfl
          | _ :: _ :: _ => exact .throw _ rfl

theorem build_alike (hextensions : planner.extensions = []) {bucket twin : Bucket}
    (htwins : bucket.UpToKeys twin) (memo : Memo) :
    EndsAlike (· = ·) SameKind (planner.build bucket) (planner.build twin) memo memo := by
  rw [build, build, htwins.rootPath_eq]
  refine (gather_alike htwins memo).bind ?_
  rintro gathered other middle _ - - hgathered rfl
  have hselection : EndsAlike (· = ·) (fun _ _ => True)
      (planner.selection bucket twin.rootPath gathered)
      (planner.selection twin twin.rootPath other) middle middle :=
    selection_alike hextensions htwins.name_eq hgathered middle
  have hchange : EndsAlike (· = ·) SameKind (planner.change bucket twin.rootPath gathered)
      (planner.change twin twin.rootPath other) middle middle :=
    change_alike htwins.name_eq hgathered middle
  obtain ⟨conditions, hlength⟩ := hgathered
  dsimp only
  split
  · exact hselection.map fun _ _ _ => rfl
  · exact hchange

end Planner

end Plan

end TreeQuery
