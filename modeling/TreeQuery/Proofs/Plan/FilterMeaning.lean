import TreeQuery.Proofs.Plan.Lookups
import TreeQuery.Proofs.Sql.Constants
import TreeQuery.Proofs.Sql.Rendering

/-!
# What a filter says

A filter is evaluated here as it is listed: every clause says something of a value,
and the markers combine the two most recent verdicts.  A clause that asks for
nothing says nothing and leaves the other side of a marker alone.  The predicate
planned for a filter says the same of every row, also once it has been written in
any dialect that has truth values behind `IS`, and read back by precedence.  The one
exception are integers that need more than a signed word of 64 bits: the predicate
compares with one of the doubles nearest to them.
-/

namespace TreeQuery

open Catalog (Memo Schema)
open Sql (Assignment Condition Engine Scalar Verdict)

/-- Whether a comparison holds between two values that are not null. -/
def Comparison.holds (engine : Engine) : Comparison → engine.Datum → engine.Datum → Bool
  | .eq, left, right => engine.equal left right
  | .ne, left, right => !engine.equal left right
  | .lt, left, right => engine.less left right
  | .gt, left, right => engine.less right left
  | .le, left, right => engine.less left right || engine.equal left right
  | .ge, left, right => engine.less right left || engine.equal left right

namespace Operator

variable (engine : Engine) (valueOf : Json → Option engine.Datum)

mutual

/-- What an operator says of a value, nothing when it asks for nothing.  Equality with
null asks whether the value is null. -/
def verdict? (value : Option engine.Datum) : Operator → Option Verdict
  | .compare .eq .null => some (some value.isNone)
  | .compare .ne .null => some (some value.isSome)
  | .compare comparison other =>
      some (engine.test (comparison.holds engine) value (valueOf other))
  | .is .null => some (some value.isNone)
  | .is (.bool true) => some (some (value.any engine.holds))
  | .is (.bool false) => some (some (value.any fun datum => !engine.holds datum))
  | .is _ => none
  | .like pattern caseSensitive =>
      some (engine.likeness (!caseSensitive) value
        (engine.literal (.string ("%" ++ pattern ++ "%"))))
  | .not operator => (verdict? value operator).map Verdict.not
  | .set values =>
      some (engine.among value (values.map valueOf))
  | .range lower upper =>
      Option.merge Verdict.and (boundVerdict? value lower) (boundVerdict? value upper)
  | .sort _ => none

/-- What one end of a range says of a value. -/
def boundVerdict? (value : Option engine.Datum) : Option Operator → Option Verdict
  | none => none
  | some operator => verdict? value operator

end

mutual

/-- The constants that an operator compares a value with. -/
def constants : Operator → List Json
  | .compare _ other => [other]
  | .set values => values
  | .not operator => constants operator
  | .range lower upper => boundConstants lower ++ boundConstants upper
  | .is _ | .like _ _ | .sort _ => []

/-- The constants that one end of a range compares a value with. -/
def boundConstants : Option Operator → List Json
  | none => []
  | some operator => constants operator

end

section Congr

variable {engine} {one other : Json → Option engine.Datum} {value : Option engine.Datum}

mutual

/-- What an operator says depends on the values of its own constants only. -/
theorem verdict?_congr : ∀ {operator : Operator},
    (∀ constant ∈ operator.constants, one constant = other constant) →
      verdict? engine one value operator = verdict? engine other value operator
  | .compare relation constant, hsame => by
      have hconstant : one constant = other constant :=
        hsame constant (List.mem_singleton_self constant)
      cases relation <;> cases constant <;> simp only [verdict?, hconstant]
  | .set values, hsame => by
      have hvalues : values.map one = values.map other := List.map_congr_left hsame
      rw [verdict?, verdict?, hvalues]
  | .not operator, hsame => by
      have hinner : verdict? engine one value operator = verdict? engine other value operator :=
        verdict?_congr hsame
      rw [verdict?, verdict?, hinner]
  | .range lower upper, hsame => by
      obtain ⟨hlower, hupper⟩ := List.forall_mem_append.mp hsame
      rw [verdict?, verdict?, boundVerdict?_congr hlower, boundVerdict?_congr hupper]
  | .is tested, _ => by
      cases tested with
      | bool truth => cases truth <;> rfl
      | null | int _ | float _ | string _ | array _ | object _ => rfl
  | .like pattern caseSensitive, _ => rfl
  | .sort direction, _ => rfl

theorem boundVerdict?_congr : ∀ {bound : Option Operator},
    (∀ constant ∈ boundConstants bound, one constant = other constant) →
      boundVerdict? engine one value bound = boundVerdict? engine other value bound
  | none, _ => rfl
  | some operator, hsame => by
      rw [boundVerdict?, boundVerdict?, verdict?_congr hsame]

end

end Congr

end Operator

namespace Expression

variable (engine : Engine) (valueOf : Json → Option engine.Datum)

/-- The verdicts left after a listing, the most recent first.  A marker needs two. -/
def verdicts? (value : String → Option engine.Datum) (verdicts : List (Option Verdict)) :
    Expression → Option (List (Option Verdict))
  | [] => some verdicts
  | .clause clause :: rest =>
      verdicts? value
        (clause.operator.verdict? engine valueOf (value clause.column) :: verdicts) rest
  | .and :: rest =>
      match verdicts with
      | right :: left :: others =>
          verdicts? value (Option.merge Verdict.and left right :: others) rest
      | _ => none
  | .or :: rest =>
      match verdicts with
      | right :: left :: others =>
          verdicts? value (Option.merge Verdict.or left right :: others) rest
      | _ => none

/-- What a filter says, given the values of the columns. -/
def verdict? (value : String → Option engine.Datum) (expression : Expression) : Option Verdict :=
  match verdicts? engine valueOf value [] expression with
  | some [verdict] => verdict
  | _ => none

/-- The constants of a filter. -/
def constants (expression : Expression) : List Json :=
  (clauses expression).flatMap fun clause => clause.operator.constants

section Congr

variable {engine} {one other : Json → Option engine.Datum} {value : String → Option engine.Datum}

theorem verdicts?_congr {expression : Expression}
    (hsame : ∀ clause ∈ clauses expression, ∀ constant ∈ clause.operator.constants,
      one constant = other constant) (verdicts : List (Option Verdict)) :
    verdicts? engine one value verdicts expression =
      verdicts? engine other value verdicts expression := by
  induction expression generalizing verdicts with
  | nil => rfl
  | cons term rest ih =>
      cases term with
      | clause clause =>
          obtain ⟨hclause, hrest⟩ := List.forall_mem_cons.mp hsame
          rw [verdicts?, verdicts?, Operator.verdict?_congr hclause, ih hrest]
      | and | or =>
          simp only [verdicts?]
          split
          · exact ih hsame _
          · rfl

/-- What a filter says depends on the values of its own constants only. -/
theorem verdict?_congr {expression : Expression}
    (hsame : ∀ constant ∈ constants expression, one constant = other constant) :
    verdict? engine one value expression = verdict? engine other value expression := by
  have hclauses : ∀ clause ∈ clauses expression, ∀ constant ∈ clause.operator.constants,
      one constant = other constant := fun clause hclause constant hconstant =>
    hsame constant (List.mem_flatMap.mpr ⟨clause, hclause, hconstant⟩)
  rw [verdict?, verdict?, verdicts?_congr hclauses]

end Congr

end Expression

namespace Plan.Predicate

/-- A planned predicate that is a condition and says what is meant; without one,
nothing is meant. -/
structure Means (predicate : Option Sql.Expr)
    (meaning : ∀ engine : Engine, Assignment engine → Option Verdict) : Prop where
  condition : ∀ expression ∈ predicate, Condition expression
  verdict : ∀ (engine : Engine) (assignment : Assignment engine),
    predicate.map (fun expression => expression.verdict engine assignment) =
      meaning engine assignment

section Means

variable {predicate left right : Option Sql.Expr}
  {meaning leftMeaning rightMeaning : ∀ engine : Engine, Assignment engine → Option Verdict}

/-- Connecting two predicates of which either may be missing connects what they say. -/
theorem Means.merge {connect : Sql.Expr → Sql.Expr → Sql.Expr}
    {combined : Verdict → Verdict → Verdict}
    (hcondition : ∀ {left right : Sql.Expr}, Condition left → Condition right →
      Condition (connect left right))
    (hverdict : ∀ (engine : Engine) (assignment : Assignment engine) (left right : Sql.Expr),
      (connect left right).verdict engine assignment =
        combined (left.verdict engine assignment) (right.verdict engine assignment))
    (hleft : Means left leftMeaning) (hright : Means right rightMeaning) :
    Means (Option.merge connect left right) fun engine assignment =>
      Option.merge combined (leftMeaning engine assignment) (rightMeaning engine assignment) := by
  constructor
  · intro expression hexpression
    rcases left with _ | left <;> rcases right with _ | right
    · cases hexpression
    · exact hright.condition _ hexpression
    · exact hleft.condition _ hexpression
    · cases hexpression
      exact hcondition (hleft.condition left rfl) (hright.condition right rfl)
  · intro engine assignment
    rw [← hleft.verdict, ← hright.verdict]
    rcases left with _ | left <;> rcases right with _ | right <;>
      simp [Option.merge, hverdict]

theorem both?_eq_merge (left right : Option Sql.Expr) :
    both? left right = Option.merge Sql.Expr.and left right := by
  cases left <;> cases right <;> rfl

theorem either?_eq_merge (left right : Option Sql.Expr) :
    either? left right = Option.merge Sql.Expr.or left right := by
  cases left <;> cases right <;> rfl

theorem Means.both (hleft : Means left leftMeaning) (hright : Means right rightMeaning) :
    Means (both? left right) fun engine assignment =>
      Option.merge Verdict.and (leftMeaning engine assignment)
        (rightMeaning engine assignment) := by
  rw [both?_eq_merge]
  exact hleft.merge .and (fun _ _ _ _ => rfl) hright

theorem Means.either (hleft : Means left leftMeaning) (hright : Means right rightMeaning) :
    Means (either? left right) fun engine assignment =>
      Option.merge Verdict.or (leftMeaning engine assignment) (rightMeaning engine assignment) := by
  rw [either?_eq_merge]
  exact hleft.merge .or (fun _ _ _ _ => rfl) hright

/-- The negation of a predicate, when there is one. -/
theorem Means.not (hmeans : Means predicate meaning) :
    Means (predicate.map Sql.Expr.not) fun engine assignment =>
      (meaning engine assignment).map Verdict.not := by
  constructor
  · intro expression hexpression
    obtain ⟨inner, hinner, rfl⟩ := Option.mem_map.mp hexpression
    exact .not (hmeans.condition inner hinner)
  · intro engine assignment
    rw [← hmeans.verdict]
    cases predicate <;> rfl

/-- A single condition means what it says. -/
theorem Means.of_condition {expression : Sql.Expr} (hcondition : Condition expression)
    (hverdict : ∀ (engine : Engine) (assignment : Assignment engine),
      some (expression.verdict engine assignment) = meaning engine assignment) :
    Means (some expression) meaning :=
  ⟨fun _ hexpression => Option.mem_some_iff.mp hexpression ▸ hcondition, hverdict⟩

theorem Means.congr (hmeans : Means predicate leftMeaning)
    (hsame : ∀ (engine : Engine) (assignment : Assignment engine),
      leftMeaning engine assignment = rightMeaning engine assignment) :
    Means predicate rightMeaning :=
  ⟨hmeans.condition, fun engine assignment =>
    (hmeans.verdict engine assignment).trans (hsame engine assignment)⟩

end Means

/-! ## Operators -/

/-- The values of a membership test are literals. -/
theorem member_eq_literals (column : Sql.Expr) (values : List Json) (negated : Bool) :
    member column values negated =
      .member column ((values.map Sql.Literal.ofJson).map .literal) negated := by
  rw [List.map_map]
  rfl

section Operators

variable {column : Sql.Expr} (hcolumn : Scalar column)

include hcolumn

theorem means_comparison (relation : Comparison) (value : Json) :
    Means (some (comparison column relation value)) fun engine assignment =>
      (Operator.compare relation value).verdict? engine engine.writtenValueOf
        (column.value engine assignment) := by
  by_cases hnull : value = .null ∧ (relation = .eq ∨ relation = .ne)
  · obtain ⟨rfl, rfl | rfl⟩ := hnull
    · exact .of_condition (.is hcolumn .null false) fun _ _ => rfl
    · refine .of_condition (.is hcolumn .null true) fun engine assignment => ?_
      change some (some (!(column.value engine assignment).isNone)) =
        some (some (column.value engine assignment).isSome)
      rw [Option.not_isNone]
  · have hcomparison : comparison column relation value =
        .binary (operatorOf relation) column (.ofJson value) := by
      cases relation <;> cases value <;> simp_all [comparison]
    rw [hcomparison]
    refine .of_condition (.compare (by cases relation <;> simp [operatorOf]) hcolumn (.literal _))
      fun engine assignment => ?_
    cases relation <;> cases value <;> simp_all [Operator.verdict?] <;> rfl

theorem means_truthTest {name : String} {value : Json} {negated : Bool} {expression : Sql.Expr}
    (hplanned : truthTest name column value negated = .ok expression) :
    Means (some expression) fun engine assignment =>
      ((Operator.is value).verdict? engine engine.writtenValueOf
        (column.value engine assignment)).map (Verdict.negatedIf negated) := by
  rw [truthTest] at hplanned
  cases htruth : truth? value with
  | none => simp [htruth] at hplanned
  | some truth =>
      rw [htruth] at hplanned
      obtain rfl := Except.ok.inj hplanned
      refine .of_condition (.is hcolumn truth negated) fun engine assignment => ?_
      unfold truth? at htruth
      split at htruth <;> cases htruth <;> rfl

theorem means_contains (pattern : String) (caseSensitive negated : Bool) :
    Means (some (contains column pattern caseSensitive negated)) fun engine assignment =>
      ((Operator.like pattern caseSensitive).verdict? engine engine.writtenValueOf
        (column.value engine assignment)).map (Verdict.negatedIf negated) :=
  .of_condition (.like hcolumn (.literal _) negated _) fun _ _ => rfl

theorem means_member (values : List Json) (negated : Bool) :
    Means (some (member column values negated)) fun engine assignment =>
      ((Operator.set values).verdict? engine engine.writtenValueOf
        (column.value engine assignment)).map (Verdict.negatedIf negated) := by
  rw [member_eq_literals]
  refine .of_condition (.member hcolumn _ negated) fun engine assignment => ?_
  rw [Sql.Expr.verdict, List.map_map, List.map_map]
  rfl

/-- An operator with a negative form of its own is negated by it. -/
theorem means_directNegation? {name : String} {operator : Operator}
    {outcome : Except Failure Sql.Expr} {expression : Sql.Expr}
    (hdirect : directNegation? name column operator = some outcome)
    (hplanned : outcome = .ok expression) :
    Means (some expression) fun engine assignment =>
      (operator.verdict? engine engine.writtenValueOf (column.value engine assignment)).map
        Verdict.not := by
  subst hplanned
  unfold directNegation? at hdirect
  split at hdirect
  · exact means_truthTest hcolumn (Option.some.inj hdirect)
  · next value =>
      obtain rfl := Except.ok.inj (Option.some.inj hdirect)
      refine (means_comparison hcolumn .ne value).congr fun engine assignment => ?_
      cases value with
      | null =>
          change some (some (column.value engine assignment).isSome) =
            some (some (!(column.value engine assignment).isNone))
          rw [Option.not_isNone]
      | _ => exact congrArg some (engine.test_not engine.equal _ _)
  · obtain rfl := Except.ok.inj (Option.some.inj hdirect)
    exact means_contains hcolumn _ _ true
  · obtain rfl := Except.ok.inj (Option.some.inj hdirect)
    exact means_member hcolumn _ true
  all_goals cases hdirect

end Operators

mutual

/-- The predicate of an operator means what the operator says of its column. -/
theorem means_ofOperator {column : Sql.Expr} (hcolumn : Scalar column) {name : String} :
    ∀ {operator : Operator} {predicate : Option Sql.Expr},
    ofOperator name column operator = .ok predicate →
      Means predicate fun engine assignment =>
        operator.verdict? engine engine.writtenValueOf (column.value engine assignment)
  | .compare relation value, _, hplanned => by
      rw [ofOperator] at hplanned
      obtain rfl := Except.ok.inj hplanned
      exact means_comparison hcolumn relation value
  | .is value, _, hplanned => by
      rw [ofOperator] at hplanned
      obtain ⟨expression, htruth, rfl⟩ := map_ok_iff.mp hplanned
      exact (means_truthTest hcolumn htruth).congr fun _ _ => Verdict.map_negatedIf_false _
  | .like pattern caseSensitive, _, hplanned => by
      rw [ofOperator] at hplanned
      obtain rfl := Except.ok.inj hplanned
      exact (means_contains hcolumn pattern caseSensitive false).congr fun _ _ =>
        Verdict.map_negatedIf_false _
  | .set values, _, hplanned => by
      rw [ofOperator] at hplanned
      obtain rfl := Except.ok.inj hplanned
      exact (means_member hcolumn values false).congr fun _ _ =>
        Verdict.map_negatedIf_false _
  | .not operator, _, hplanned => by
      rw [ofOperator] at hplanned
      cases hdirect : directNegation? name column operator with
      | some outcome =>
          rw [hdirect] at hplanned
          obtain ⟨expression, hexpression, rfl⟩ := map_ok_iff.mp hplanned
          exact means_directNegation? hcolumn hdirect hexpression
      | none =>
          rw [hdirect] at hplanned
          obtain ⟨inner, hinner, rfl⟩ := map_ok_iff.mp hplanned
          exact (means_ofOperator hcolumn hinner).not
  | .range lower upper, _, hplanned => by
      rw [ofOperator] at hplanned
      obtain ⟨lowerPredicate, hlower, hplanned⟩ := bind_ok_iff.mp hplanned
      obtain ⟨upperPredicate, hupper, hplanned⟩ := bind_ok_iff.mp hplanned
      obtain rfl := Except.ok.inj hplanned
      exact (means_ofBound hcolumn hlower).both (means_ofBound hcolumn hupper)
  | .sort _, _, hplanned => by
      simp [ofOperator] at hplanned

theorem means_ofBound {column : Sql.Expr} (hcolumn : Scalar column) {name : String} :
    ∀ {bound : Option Operator} {predicate : Option Sql.Expr},
    ofBound name column bound = .ok predicate →
      Means predicate fun engine assignment =>
        Operator.boundVerdict? engine engine.writtenValueOf (column.value engine assignment) bound
  | none, _, hplanned => by
      rw [ofBound] at hplanned
      obtain rfl := Except.ok.inj hplanned
      exact ⟨nofun, fun _ _ => rfl⟩
  | some operator, _, hplanned => by
      rw [ofBound] at hplanned
      exact means_ofOperator hcolumn hplanned

end

/-! ## Listings -/

variable {schema : Schema} {path : Path} {memo now after : Memo}

/-- The value of a column of a path: of the table reference and the column that the
schema answers. -/
def columnValue (schema : Schema) (memo : Memo) (path : Path) (engine : Engine)
    (assignment : Assignment engine) (name : String) : Option engine.Datum :=
  (schema.columnAnswer? memo ⟨name, path⟩).bind fun column =>
    assignment (some column.table.reference) column.name

/-- The predicate of a clause means what the clause says of its column. -/
theorem means_ofClause {clause : Clause} {predicate : Option Sql.Expr}
    (hrun : Succeeds (ofClause schema path clause) memo predicate after) :
    Means predicate fun engine assignment =>
      clause.operator.verdict? engine engine.writtenValueOf
        (columnValue schema memo path engine assignment clause.column) := by
  obtain ⟨-, column, hanswer, hplanned⟩ := ofClause_succeeds hrun
  refine (means_ofOperator (.column _ _) hplanned).congr fun engine assignment => ?_
  rw [columnValue, hanswer]
  rfl

/-- The planned predicates are conditions. -/
def AreConditions (predicates : List (Option Sql.Expr)) : Prop :=
  ∀ predicate ∈ predicates, ∀ expression ∈ predicate, Condition expression

/-- What planned predicates say. -/
def said (engine : Engine) (assignment : Assignment engine)
    (predicates : List (Option Sql.Expr)) : List (Option Verdict) :=
  predicates.map (Option.map fun expression => expression.verdict engine assignment)

theorem Means.self {predicate : Option Sql.Expr}
    (hcondition : ∀ expression ∈ predicate, Condition expression) :
    Means predicate fun engine assignment =>
      predicate.map fun expression => expression.verdict engine assignment :=
  ⟨hcondition, fun _ _ => rfl⟩

/-- A marker takes two planned predicates and connects what they say. -/
theorem combine_ok {operation : Option Sql.Expr → Option Sql.Expr → Option Sql.Expr}
    {combined : Verdict → Verdict → Verdict} {results next : List (Option Sql.Expr)}
    (hoperation : ∀ {left right : Option Sql.Expr}
      {leftMeaning rightMeaning : ∀ engine : Engine, Assignment engine → Option Verdict},
      Means left leftMeaning → Means right rightMeaning →
        Means (operation left right) fun engine assignment =>
          Option.merge combined (leftMeaning engine assignment) (rightMeaning engine assignment))
    (hcombine : combine path operation results = .ok next) (hresults : AreConditions results) :
    AreConditions next ∧ ∀ (engine : Engine) (assignment : Assignment engine),
      ∃ right left others, said engine assignment results = right :: left :: others ∧
        said engine assignment next = Option.merge combined left right :: others := by
  unfold combine at hcombine
  split at hcombine
  · next right left others =>
      obtain rfl := Except.ok.inj hcombine
      obtain ⟨hright, hresults⟩ := List.forall_mem_cons.mp hresults
      obtain ⟨hleft, hothers⟩ := List.forall_mem_cons.mp hresults
      have hmeans := hoperation (Means.self hleft) (Means.self hright)
      refine ⟨List.forall_mem_cons.mpr ⟨hmeans.condition, hothers⟩, fun engine assignment => ?_⟩
      refine ⟨_, _, _, rfl, ?_⟩
      rw [said, List.map_cons, ← hmeans.verdict engine assignment]
  · cases hcombine

/-- The results of a listing say what its evaluation leaves, whatever stood before.
The induction is on the run; its columns keep the answers they had at first. -/
theorem ReduceRun.means {expression : Expression} {results final : List (Option Sql.Expr)}
    (hrun : ReduceRun schema path now results expression final after)
    (hgrown : Memo.Grows schema (· = path) memo now) (hresults : AreConditions results) :
    AreConditions final ∧ ∀ (engine : Engine) (assignment : Assignment engine),
      Expression.verdicts? engine engine.writtenValueOf
        (columnValue schema memo path engine assignment) (said engine assignment results)
        expression = some (said engine assignment final) := by
  induction hrun with
  | nil => exact ⟨hresults, fun _ _ => rfl⟩
  | clause hclause _ ih =>
      have hgrows := (ofClause_succeeds hclause).1
      have hmeans := means_ofClause hclause
      obtain ⟨hfinal, hverdicts⟩ := ih (hgrown.trans hgrows)
        (List.forall_mem_cons.mpr ⟨hmeans.condition, hresults⟩)
      refine ⟨hfinal, fun engine assignment => ?_⟩
      rw [← hverdicts engine assignment, Expression.verdicts?, said, said, List.map_cons,
        hmeans.verdict, columnValue, columnValue, Schema.columnAnswer?_stable hgrown]
  | and hcombine _ ih =>
      obtain ⟨hconditions, hsaid⟩ := combine_ok Means.both hcombine hresults
      obtain ⟨hfinal, hverdicts⟩ := ih hgrown hconditions
      refine ⟨hfinal, fun engine assignment => ?_⟩
      obtain ⟨right, left, others, hbefore, hbehind⟩ := hsaid engine assignment
      rw [← hverdicts, hbefore, hbehind, Expression.verdicts?]
  | or hcombine _ ih =>
      obtain ⟨hconditions, hsaid⟩ := combine_ok Means.either hcombine hresults
      obtain ⟨hfinal, hverdicts⟩ := ih hgrown hconditions
      refine ⟨hfinal, fun engine assignment => ?_⟩
      obtain ⟨right, left, others, hbefore, hbehind⟩ := hsaid engine assignment
      rw [← hverdicts, hbefore, hbehind, Expression.verdicts?]

/-- What a listing is reduced to says what its evaluation leaves. -/
theorem reduce_succeeds {expression : Expression} {results final : List (Option Sql.Expr)}
    (hgrown : Memo.Grows schema (· = path) memo now)
    (hrun : Succeeds (reduce schema path results expression) now final after)
    (hresults : AreConditions results) :
    AreConditions final ∧ ∀ (engine : Engine) (assignment : Assignment engine),
      Expression.verdicts? engine engine.writtenValueOf
        (columnValue schema memo path engine assignment) (said engine assignment results)
        expression = some (said engine assignment final) :=
  (reduce_run hrun).means hgrown hresults

/-- A predicate says of every row what a filter is listed to say, where constants have the
given values. -/
def Says (schema : Schema) (memo : Memo) (path : Path) (expression : Expression)
    (predicate : Sql.Expr) (engine : Engine) (valueOf : Json → Option engine.Datum) : Prop :=
  ∀ assignment : Assignment engine,
    some (predicate.verdict engine assignment) =
      Expression.verdict? engine valueOf (columnValue schema memo path engine assignment)
        expression

theorem Says.congr {expression : Expression} {predicate : Sql.Expr} {engine : Engine}
    {one other : Json → Option engine.Datum}
    (hmeaning : Says schema memo path expression predicate engine one)
    (hsame : ∀ constant ∈ Expression.constants expression, one constant = other constant) :
    Says schema memo path expression predicate engine other :=
  fun assignment => (hmeaning assignment).trans (Expression.verdict?_congr hsame)

/-- Comparisons of numbers tell all numbers apart. -/
theorem eq_of_holds_numbers (relation : Comparison) {left right : Int}
    (hsame : ∀ number : Int, relation.holds .numbers number left =
      relation.holds .numbers number right) : left = right := by
  have hleft := hsame left
  have hright := hsame right
  cases relation <;> simp [Comparison.holds, Engine.numbers] at hleft hright <;> omega

/-- A single comparison leaves what it says. -/
theorem verdict?_comparison (engine : Engine) (valueOf : Json → Option engine.Datum)
    (value : String → Option engine.Datum) (column : String) (relation : Comparison)
    (constant : Int) :
    Expression.verdict? engine valueOf value [.clause ⟨column, .compare relation (.int constant)⟩] =
      some (engine.test (relation.holds engine) (value column) (valueOf (.int constant))) := by
  cases relation <;> rfl

/-- The column of a planned clause can have any value. -/
theorem exists_columnValue {clause : Clause} {planned : Sql.Expr}
    (hplanned : Succeeds (ofExpression schema path [.clause clause]) memo (some planned) after)
    (engine : Engine) (datum : Option engine.Datum) :
    ∃ assignment, columnValue schema memo path engine assignment clause.column = datum := by
  rcases ofExpression_succeeds hplanned with ⟨hnone, -⟩ | hreduce
  · cases hnone
  · cases reduce_run hreduce with
    | clause hclause _ =>
        obtain ⟨-, column, hanswer, -⟩ := ofClause_succeeds hclause
        refine ⟨fun _ _ => datum, ?_⟩
        rw [columnValue, hanswer]
        rfl

/-- A predicate that says what a filter is listed to say, except that integers beyond a
signed word of 64 bits are rounded to doubles. -/
structure Faithful (schema : Schema) (memo : Memo) (path : Path) (expression : Expression)
    (predicate : Sql.Expr) (rounded : Int → Option Double) : Prop where
  nearest : ∀ value : Int, value.natAbs < 2 ^ 64 →
    ∃ nearest, rounded value = some nearest ∧ nearest.IsNearest value
  up_to_rounding : ∀ engine : Engine,
    Says schema memo path expression predicate engine (engine.roundedValueOf rounded)
  exactly : (∀ constant ∈ Expression.constants expression, constant.FitsWord) →
    ∀ engine : Engine, Says schema memo path expression predicate engine engine.valueOf
  /-- Among numbers, a single comparison is meant as it is listed exactly if its integer fits
  or is the value of a double. -/
  comparison_iff : ∀ (column : String) (relation : Comparison) (value : Int),
    expression = [.clause ⟨column, .compare relation (.int value)⟩] → value.natAbs < 2 ^ 64 →
      (Says schema memo path expression predicate .numbers Engine.numbers.valueOf ↔
        (Json.int value).FitsWord ∨
          ∃ double : Double, double.inUnits = value * Double.unitsPerOne)

/-- Among numbers, what a single comparison says tells the values of its constant apart. -/
theorem Says.comparison_iff {column : String} {relation : Comparison} {value : Int}
    {planned predicate : Sql.Expr} {one other : Json → Option Engine.numbers.Datum}
    (hplanned : Succeeds
      (ofExpression schema path [.clause ⟨column, .compare relation (.int value)⟩]) memo
      (some planned) after)
    (hone : Says schema memo path [.clause ⟨column, .compare relation (.int value)⟩] predicate
      .numbers one)
    (hvalue : (one (.int value)).isSome) (hother : (other (.int value)).isSome) :
    Says schema memo path [.clause ⟨column, .compare relation (.int value)⟩] predicate
      .numbers other ↔ one (.int value) = other (.int value) := by
  obtain ⟨left, hleft⟩ := Option.isSome_iff_exists.mp hvalue
  obtain ⟨right, hright⟩ := Option.isSome_iff_exists.mp hother
  constructor
  · intro hmeaning
    rw [hleft, hright]
    refine congrArg some (eq_of_holds_numbers relation fun number => ?_)
    obtain ⟨assignment, hnumber⟩ := exists_columnValue hplanned .numbers (some number)
    have hverdicts := (hone assignment).symm.trans (hmeaning assignment)
    rw [verdict?_comparison, verdict?_comparison, hnumber, hleft, hright] at hverdicts
    exact Option.some.inj (Option.some.inj hverdicts)
  · intro hsame
    apply hone.congr
    intro constant hconstant
    obtain rfl := List.mem_singleton.mp hconstant
    exact hsame

/-- What a planned filter says up to rounding decides what it says. -/
theorem Faithful.of_rounded {expression : Expression} {planned predicate : Sql.Expr}
    {rounded : Int → Option Double}
    (hplanned : Succeeds (ofExpression schema path expression) memo (some planned) after)
    (hnearest : ∀ value : Int, value.natAbs < 2 ^ 64 →
      ∃ nearest, rounded value = some nearest ∧ nearest.IsNearest value)
    (hmeaning : ∀ engine : Engine,
      Says schema memo path expression predicate engine (engine.roundedValueOf rounded)) :
    Faithful schema memo path expression predicate rounded where
  nearest := hnearest
  up_to_rounding := hmeaning
  exactly hfits engine := (hmeaning engine).congr fun constant hconstant =>
    engine.roundedValueOf_of_fitsWord (hfits constant hconstant)
  comparison_iff := by
    rintro column relation value rfl hvalue
    obtain ⟨nearest, hrounded, hnear⟩ := hnearest value hvalue
    rw [← Engine.numbers_roundedValueOf_eq_iff hrounded hnear]
    apply Says.comparison_iff hplanned (hmeaning .numbers) _ rfl
    rw [Engine.roundedValueOf, hrounded]
    split_ifs <;> rfl

/-- A planned filter says what it was listed to say, up to the rounding of large integers.
Written in a dialect with truth values behind `IS` and read back by precedence, it still
says so. -/
theorem reading_planned_filter {expression : Expression} {planned : Sql.Expr}
    {dialect : Sql.Dialect}
    (hplanned : Succeeds (ofExpression schema path expression) memo (some planned) after)
    (hdialect : dialect ≠ .tsql) :
    ∃ predicate rounded, Sql.Reading.predicate? (planned.tokens dialect) = some predicate ∧
      Faithful schema memo path expression predicate rounded := by
  have htruth : dialect.hasTruthPredicate = true := by
    cases dialect with
    | tsql => exact absurd rfl hdialect
    | _ => rfl
  rcases ofExpression_succeeds hplanned with ⟨hnone, -⟩ | hreduce
  · cases hnone
  · obtain ⟨hconditions, hverdicts⟩ := reduce_succeeds .refl hreduce (by simp [AreConditions])
    obtain ⟨predicate, hread, hsame⟩ := Sql.Reading.predicate?_tokens htruth
      (hconditions _ (List.mem_singleton_self _) planned rfl)
    refine ⟨predicate, Double.ofInt?, hread, .of_rounded hplanned
      (fun _ => Double.exists_isNearest) fun engine assignment => ?_⟩
    have hleft : Expression.verdicts? engine engine.writtenValueOf
        (columnValue schema memo path engine assignment) [] expression =
          some [some (planned.verdict engine assignment)] := hverdicts engine assignment
    rw [← engine.writtenValueOf_eq, Expression.verdict?, hleft, hsame]

/-- A schema of one table. -/
def bookshelf : Schema where
  tables := [{ name := "book", columns := ["id", "title", "year"] }]
  graph := { tables := ["book"] }
  junctions := []

/-- Not from the nineties or titled like a guide, in any year, and in an empty list. -/
def guidesOutsideTheNineties : Expression :=
  [.clause ⟨"year", .not (.range (some (.compare .ge (.int 1990)))
      (some (.compare .lt (.int 2000))))⟩,
    .clause ⟨"title", .like "guide" false⟩, .or, .clause ⟨"year", .range none none⟩, .and,
    .clause ⟨"id", .set []⟩, .and]

theorem reading_planned_filter_bookshelf :
    ∃ planned after,
      Succeeds (ofExpression bookshelf [{ name := "book" }] guidesOutsideTheNineties) {}
        (some planned) after ∧ Sql.Dialect.sqlite ≠ .tsql ∧
      ∃ predicate rounded, Sql.Reading.predicate? (planned.tokens .sqlite) = some predicate ∧
        Faithful bookshelf {} [{ name := "book" }] guidesOutsideTheNineties predicate rounded ∧
        ∀ engine : Engine, Says bookshelf {} [{ name := "book" }] guidesOutsideTheNineties
          predicate engine engine.valueOf := by
  have hplanned : ∃ planned after,
      Succeeds (ofExpression bookshelf [{ name := "book" }] guidesOutsideTheNineties) {}
        (some planned) after := ⟨_, _, rfl⟩
  obtain ⟨planned, after, hplanned⟩ := hplanned
  have hdialect : Sql.Dialect.sqlite ≠ .tsql := by decide
  obtain ⟨predicate, rounded, hread, hfaithful⟩ := reading_planned_filter hplanned hdialect
  exact ⟨planned, after, hplanned, hdialect, predicate, rounded, hread, hfaithful,
    hfaithful.exactly (by decide)⟩

/-- From a year on that is one more than `2^63`. -/
def farFuture : Expression :=
  [.clause ⟨"year", .compare .ge (.int 9223372036854775809)⟩]

/-- The year `2^63` lies before the year that is asked for, but not before the double that is
written for it. -/
theorem farFuture_says_otherwise :
    ∃ planned after predicate,
      Succeeds (ofExpression bookshelf [{ name := "book" }] farFuture) {} (some planned) after ∧
      Sql.Reading.predicate? (planned.tokens .postgres) = some predicate ∧
      ∃ assignment : Assignment .numbers,
        columnValue bookshelf {} [{ name := "book" }] .numbers assignment "year" =
          Engine.numbers.valueOf (.int 9223372036854775808) ∧
        predicate.verdict .numbers assignment = some true ∧
        Expression.verdict? .numbers Engine.numbers.valueOf
          (columnValue bookshelf {} [{ name := "book" }] .numbers assignment) farFuture =
            some (some false) :=
  ⟨_, _, _, rfl, rfl, fun _ _ => Engine.numbers.valueOf (.int 9223372036854775808), rfl,
    by decide +kernel, by decide +kernel⟩

end Plan.Predicate

end TreeQuery
