import TreeQuery.Plan.Gathered
import TreeQuery.Proofs.Request.Places

/-!
# Compiling one integer

Clauses that are the same but for one integer are compiled alike: either it fails in the same way
for all of them, or the predicates are the same but for the literal of the integer.
-/

namespace TreeQuery.Plan

open Catalog (Memo Schema)
open Sql (Place)

variable {ι : Type} {number : ι → Int} {schema : Schema} {path : Path}

/-! ## Predicates -/

/-- Predicates that are the same but for the literal of one integer. -/
def PredicatesCarry (number : ι → Int) (predicates : ι → Option Sql.Expr) : Prop :=
  ∃ expressions, Sql.Expr.Carries (fun i => Place.value.literal (number i)) expressions ∧
    predicates = fun i => some (expressions i)

namespace Predicate

variable {predicates : ι → Option Sql.Expr}

/-- An operation on two predicates that keeps what either of them carries. -/
structure KeepsEither (number : ι → Int)
    (operation : Option Sql.Expr → Option Sql.Expr → Option Sql.Expr) : Prop where
  left : ∀ {predicates : ι → Option Sql.Expr}, PredicatesCarry number predicates → ∀ right,
    PredicatesCarry number fun i => operation (predicates i) right
  right : ∀ {predicates : ι → Option Sql.Expr}, PredicatesCarry number predicates → ∀ left,
    PredicatesCarry number fun i => operation left (predicates i)

theorem KeepsEither.of_binary {operation : Option Sql.Expr → Option Sql.Expr → Option Sql.Expr}
    (operator : Sql.BinaryOperator)
    (hboth : ∀ left right, operation (some left) (some right) = some (.binary operator left right))
    (hleft : ∀ left, operation (some left) none = some left)
    (hright : ∀ right, operation none right = right) : KeepsEither number operation where
  left := by
    rintro _ ⟨expressions, hcarries, rfl⟩ right
    cases right with
    | none => exact ⟨_, hcarries, funext fun _ => hleft _⟩
    | some right => exact ⟨_, hcarries.left operator right, funext fun _ => hboth _ _⟩
  right := by
    rintro _ ⟨expressions, hcarries, rfl⟩ left
    cases left with
    | none => exact ⟨_, hcarries, funext fun _ => hright _⟩
    | some left => exact ⟨_, hcarries.right operator left, funext fun _ => hboth _ _⟩

theorem keepsEither_both? : KeepsEither number both? :=
  .of_binary .and (fun _ _ => rfl) (fun _ => rfl) fun right => by cases right <;> rfl

theorem keepsEither_either? : KeepsEither number either? :=
  .of_binary .or (fun _ _ => rfl) (fun _ => rfl) fun right => by cases right <;> rfl

section Operators

variable {name : String} {column : Sql.Expr} {operators : ι → Operator}

theorem comparison_carries (column : Sql.Expr) (relation : Comparison) :
    Sql.Expr.Carries (fun i => Place.value.literal (number i)) fun i =>
      comparison column relation (.int (number i)) := by
  cases relation <;> exact Sql.Expr.Carries.literal.right _ column

theorem member_carries (column : Sql.Expr) (before behind : List Json) (negated : Bool) :
    Sql.Expr.Carries (fun i => Place.value.literal (number i)) fun i =>
      member column (before ++ .int (number i) :: behind) negated := by
  simp only [member, List.map_append, List.map_cons]
  exact .member column _ _ negated

/-- Either all of the operators have a negative form of their own, or none has. -/
theorem directNegation?_carries (name : String) (column : Sql.Expr)
    (hoperators : Operator.Carries number operators) :
    (∃ negations, Sql.Expr.Carries (fun i => Place.value.literal (number i)) negations ∧
        ∀ i, directNegation? name column (operators i) = some (.ok (negations i))) ∨
      ∀ i, directNegation? name column (operators i) = none := by
  cases hoperators with
  | compare relation =>
      cases relation with
      | eq => exact .inl ⟨_, comparison_carries column .ne, fun _ => rfl⟩
      | _ => exact .inr fun _ => rfl
  | set before behind => exact .inl ⟨_, member_carries column before behind true, fun _ => rfl⟩
  | _ => exact .inr fun _ => rfl

/-- The predicate of an operator carries what the operator does. -/
theorem ofOperator_uniform (name : String) (column : Sql.Expr)
    (hoperators : Operator.Carries number operators) :
    UniformOutcome (PredicatesCarry number) fun i => ofOperator name column (operators i) := by
  induction hoperators with
  | compare relation =>
      simp only [ofOperator]
      exact .ok ⟨_, comparison_carries column relation, rfl⟩
  | set before behind =>
      simp only [ofOperator]
      exact .ok ⟨_, member_carries column before behind false, rfl⟩
  | not hoperators ih =>
      simp only [ofOperator]
      rcases directNegation?_carries name column hoperators with
        ⟨negations, hcarries, hdirect⟩ | hnone
      · simp only [hdirect]
        exact .ok ⟨_, hcarries, rfl⟩
      · simp only [hnone]
        apply ih.map
        rintro _ ⟨expressions, hcarries, rfl⟩
        exact ⟨_, hcarries.not, rfl⟩
  | lower hoperators upper ih =>
      simp only [ofOperator, ofBound]
      apply ih.bind
      intro lowers hlowers
      apply UniformOutcome.bind_same
      exact fun upper => .ok (keepsEither_both?.left hlowers upper)
  | upper hoperators lower ih =>
      simp only [ofOperator, ofBound]
      apply UniformOutcome.bind_same
      intro lower
      apply ih.bind
      exact fun uppers huppers => .ok (keepsEither_both?.right huppers lower)

theorem ofClause_eq (clause : Clause) :
    ofClause schema path clause =
      (schema.column ⟨clause.column, path⟩).adapt Failure.schema >>= fun column =>
        liftExcept (ofOperator clause.column column.expression clause.operator) := by
  apply bind_congr
  intro column
  cases ofOperator clause.column column.expression clause.operator <;> rfl

/-- The predicate of a clause carries what its operator does. -/
theorem ofClause_uniform (column : String) (hoperators : Operator.Carries number operators)
    (memo : Memo) :
    Uniform (PredicatesCarry number)
      (fun i => ofClause schema path ⟨column, operators i⟩) memo := by
  simp only [ofClause_eq]
  apply Uniform.bind_same
  intro resolved middle _
  exact .liftExcept (ofOperator_uniform column resolved.expression hoperators)

end Operators

/-! ## Listings -/

/-- Results that are the same but for the literal of one integer in one of them. -/
def ResultsCarry (number : ι → Int) (results : ι → List (Option Sql.Expr)) : Prop :=
  ∃ predicates, PredicatesCarry number predicates ∧ Gap predicates results

variable {results : ι → List (Option Sql.Expr)}

theorem combine_uniform {operation : Option Sql.Expr → Option Sql.Expr → Option Sql.Expr}
    (hoperation : KeepsEither number operation) (hresults : ResultsCarry number results) :
    UniformOutcome (ResultsCarry number) fun i => combine path operation (results i) := by
  obtain ⟨predicates, hcarry, before, behind, rfl⟩ := hresults
  match before with
  | [] =>
      cases behind with
      | nil => exact .error _
      | cons left rest => exact .ok ⟨_, hoperation.right hcarry left, .intro [] rest⟩
  | [right] => exact .ok ⟨_, hoperation.left hcarry right, .intro [] behind⟩
  | right :: left :: rest =>
      exact .ok ⟨predicates, hcarry, .intro (operation left right :: rest) behind⟩

theorem reduce_append (behind : Expression) : ∀ (before : Expression)
    (results : List (Option Sql.Expr)), reduce schema path results (before ++ behind) =
      reduce schema path results before >>= fun results => reduce schema path results behind := by
  intro before
  induction before with
  | nil => exact fun results => (pure_bind _ _).symm
  | cons term rest ih =>
      intro results
      cases term <;> simp [reduce, ih]

/-- The results that a listing starts from may carry an integer. -/
theorem reduce_uniform_of_results (expression : Expression) :
    ∀ {results : ι → List (Option Sql.Expr)}, ResultsCarry number results → ∀ memo,
      Uniform (ResultsCarry number)
        (fun i => reduce schema path (results i) expression) memo := by
  induction expression with
  | nil => exact fun hresults memo => .pure hresults
  | cons term rest ih =>
      intro results hresults memo
      cases term with
      | clause clause =>
          simp only [reduce]
          apply Uniform.bind_same
          intro predicate middle _
          obtain ⟨predicates, hcarry, hgap⟩ := hresults
          exact ih ⟨predicates, hcarry, hgap.cons predicate⟩ middle
      | and =>
          simp only [reduce]
          apply (Uniform.liftExcept (combine_uniform keepsEither_both? hresults)).bind
          exact fun _ middle hcombined => ih hcombined middle
      | or =>
          simp only [reduce]
          apply (Uniform.liftExcept (combine_uniform keepsEither_either? hresults)).bind
          exact fun _ middle hcombined => ih hcombined middle

/-- The one result that a listing should leave. -/
def onlyResult (path : Path) :
    List (Option Sql.Expr) → Except Failure (Option Sql.Expr)
  | [result] => .ok result
  | results => .error (.malformed (.severalResults path.outputName results.length))

theorem ofExpression_eq {expression : Expression} (hsome : expression.isEmpty = false) :
    ofExpression schema path expression =
      reduce schema path [] expression >>= fun results => liftExcept (onlyResult path results) := by
  simp only [ofExpression, hsome]
  apply bind_congr
  intro results
  rcases results with _ | ⟨first, _ | ⟨second, rest⟩⟩ <;> rfl

theorem onlyResult_uniform (hresults : ResultsCarry number results) :
    UniformOutcome (PredicatesCarry number) fun i => onlyResult path (results i) := by
  obtain ⟨predicates, hcarry, before, behind, rfl⟩ := hresults
  match before, behind with
  | [], [] => exact .ok hcarry
  | [], _ :: rest | [_], rest =>
      exact .error (Failure.malformed (.severalResults path.outputName (rest.length + 2)))
  | first :: second :: others, rest =>
      have hlength (i : ι) :
          (others ++ predicates i :: rest).length = others.length + rest.length + 1 := by
        simp [Nat.add_assoc]
      have hsame (i : ι) : onlyResult path (first :: second :: others ++ predicates i :: rest) =
          .error (.malformed (.severalResults path.outputName
            (others.length + rest.length + 1 + 2))) := by
        rw [← hlength i]
        rfl
      simp only [hsame]
      exact .error _

/-- The predicate of an expression carries what the expression does. -/
theorem ofExpression_uniform {expressions : ι → Expression}
    (hexpressions : Expression.Carries number expressions) (memo : Memo) :
    Uniform (PredicatesCarry number) (fun i => ofExpression schema path (expressions i)) memo := by
  have hsome := hexpressions.isEmpty
  simp only [ofExpression_eq (hsome _)]
  obtain ⟨column, operators, hoperators, before, behind, rfl⟩ := hexpressions
  simp only [reduce_append, reduce, bind_assoc]
  apply Uniform.bind_same
  intro results middle _
  apply (ofClause_uniform column hoperators middle).bind
  intro predicates found hcarry
  apply (reduce_uniform_of_results behind ⟨predicates, hcarry, .intro [] results⟩ found).bind
  exact fun _ _ hresults => .liftExcept (onlyResult_uniform hresults)

end Predicate

/-! ## Clauses of a bucket -/

/-- Collections of clauses that are the same but for one integer in the filter. -/
def ClausesCarry (number : ι → Int) (clauses : ι → ClauseSet) : Prop :=
  ∃ (base : ClauseSet) (filters : ι → Expression), Expression.Carries number filters ∧
    clauses = fun i => { base with filter := filters i }

theorem ClauseSet.push_uniform (clauses : ClauseSet) {expressions : ι → Expression}
    (hexpressions : Expression.Carries number expressions) :
    UniformOutcome (ClausesCarry number) fun i => clauses.push (expressions i) := by
  obtain ⟨uniform, huniform⟩ := hexpressions.isUniform
  cases uniform with
  | false =>
      simp only [push, huniform]
      exact .error _
  | true =>
      have hcategory (i : ι) := hexpressions.category (huniform i)
      simp only [push, huniform, hcategory]
      exact .ok ⟨clauses, _, hexpressions.combine_right clauses.filter .and, rfl⟩

theorem ClausesCarry.push_uniform {clauses : ι → ClauseSet} (hclauses : ClausesCarry number clauses)
    (expression : Expression) :
    UniformOutcome (ClausesCarry number) fun i => (clauses i).push expression := by
  obtain ⟨base, filters, hfilters, rfl⟩ := hclauses
  unfold ClauseSet.push
  split
  · split
    · exact .ok ⟨base, _, hfilters.combine_left expression .and, rfl⟩
    · next hcategory =>
        exact .ok ⟨{ base with order := .combine base.order expression .and }, _, hfilters, rfl⟩
    · exact .ok ⟨base, _, hfilters, rfl⟩
  · exact .error _

end TreeQuery.Plan
