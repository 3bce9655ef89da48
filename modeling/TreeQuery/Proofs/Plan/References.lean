import TreeQuery.Proofs.Plan.FilterMeaning
import TreeQuery.Proofs.Plan.Joins
import TreeQuery.Proofs.Sql.References

/-!
# What clauses refer to

The clauses of a bucket are planned at its place: every column in them is found there, and is
qualified by the name of the table there.
-/

namespace TreeQuery

open Catalog (Memo Schema)

/-! ## Names in a request -/

/-- The columns in the clauses of an expression have names of a kind. -/
def Expression.Named (kind : String → Prop) (expression : Expression) : Prop :=
  ∀ clause ∈ Expression.clauses expression, kind clause.column

instance (kind : String → Prop) [DecidablePred kind] (expression : Expression) :
    Decidable (Expression.Named kind expression) :=
  inferInstanceAs (Decidable (∀ clause ∈ Expression.clauses expression, kind clause.column))

/-- The columns that an element asks for or narrows have names of a kind. -/
def ElementOf.Named (kind : String → Prop) : Element → Prop
  | item (.column name) => kind name
  | clause expression => Expression.Named kind expression
  | _ => True

instance (kind : String → Prop) [DecidablePred kind] (element : Element) :
    Decidable (element.Named kind) :=
  match element with
  | .item (.column name) => inferInstanceAs (Decidable (kind name))
  | .clause expression => inferInstanceAs (Decidable (Expression.Named kind expression))
  | .item (.row _) | .bucket _ | .slice _ | .total | .beacon _ =>
      inferInstanceAs (Decidable True)

/-- All names in a bucket are of a kind, at every level of nesting: its steps, the columns
that it asks for and those in its clauses. -/
def Bucket.Named (kind : String → Prop) (bucket : Bucket) : Prop :=
  ∀ inner, Bucket.Within inner bucket →
    inner.step.Named kind ∧ ∀ element ∈ inner.elements, element.Named kind

instance (kind : String → Prop) [DecidablePred kind] (bucket : Bucket) :
    Decidable (bucket.Named kind) :=
  decidable_of_iff (∀ inner ∈ bucket.levels,
      inner.step.Named kind ∧ ∀ element ∈ inner.elements, element.Named kind)
    ⟨fun hlevels inner hwithin => hlevels inner (Bucket.mem_levels.mpr hwithin),
      fun hnamed inner hmem => hnamed inner (Bucket.mem_levels.mp hmem)⟩

/-- All names in elements, and in the buckets nested in them, are of a kind. -/
structure NamedElements (kind : String → Prop) (elements : List Element) : Prop where
  own : ∀ element ∈ elements, element.Named kind
  children : ∀ child, .bucket child ∈ elements → child.Named kind

variable {kind : String → Prop}

theorem Bucket.Named.elements {bucket : Bucket} (hnamed : bucket.Named kind) :
    NamedElements kind bucket.elements :=
  ⟨(hnamed bucket .self).2, fun _ hchild inner hwithin => hnamed inner (.nested hchild hwithin)⟩

theorem Bucket.Named.rootPath {bucket : Bucket} (hnamed : bucket.Named kind) :
    Path.Named kind bucket.rootPath := by
  have hstep : bucket.step.Named kind := (hnamed bucket .self).1
  have hbare : bucket.step.bare.Named kind :=
    ⟨hstep.name, fun _ hmem => absurd hmem (Option.not_mem_none _),
      fun _ hmem => absurd hmem (Option.not_mem_none _)⟩
  rw [Bucket.rootPath]
  split
  · exact List.forall_mem_singleton.mpr hstep
  · exact List.forall_mem_singleton.mpr hbare

theorem NamedElements.tail {element : Element} {rest : List Element}
    (hnamed : NamedElements kind (element :: rest)) : NamedElements kind rest :=
  ⟨fun other hother => hnamed.own other (List.mem_cons_of_mem _ hother),
    fun child hchild => hnamed.children child (List.mem_cons_of_mem _ hchild)⟩

namespace Plan

/-- The columns in collected clauses have names of a kind. -/
structure ClauseSet.Named (kind : String → Prop) (clauses : ClauseSet) : Prop where
  filter : Expression.Named kind clauses.filter
  order : Expression.Named kind clauses.order

theorem named_combine {left right : Expression} {marker : Term}
    (hleft : Expression.Named kind left) (hright : Expression.Named kind right)
    (hmarker : marker.clause? = none) :
    Expression.Named kind (Expression.combine left right marker) := by
  rw [Expression.combine]
  split
  · exact hright
  · split
    · exact hleft
    · intro clause hclause
      rw [Expression.clauses, List.filterMap_append, List.filterMap_append,
        List.filterMap_cons_none hmarker, List.filterMap_nil, List.append_nil] at hclause
      rcases List.mem_append.mp hclause with hclause | hclause
      · exact hleft clause hclause
      · exact hright clause hclause

theorem ClauseSet.Named.push {clauses next : ClauseSet} {expression : Expression}
    (hclauses : clauses.Named kind) (hexpression : Expression.Named kind expression)
    (hpush : clauses.push expression = .ok next) : next.Named kind := by
  rw [ClauseSet.push] at hpush
  split at hpush
  · split at hpush
    · obtain rfl := Except.ok.inj hpush
      exact ⟨named_combine hclauses.filter hexpression rfl, hclauses.order⟩
    · obtain rfl := Except.ok.inj hpush
      exact ⟨hclauses.filter, named_combine hclauses.order hexpression rfl⟩
    · obtain rfl := Except.ok.inj hpush
      exact hclauses
  · cases hpush

variable {schema : Schema} {memo after : Memo} {place root : Path} {places : List Path}

/-- A name is that of the table at one of some places. -/
def Visible (schema : Schema) (places : List Path) (name : String) : Prop :=
  ∃ place ∈ places, ∃ table, schema.tableRef? place = some table ∧ table.reference = name

theorem Visible.mono {others : List Path} (hplaces : ∀ place ∈ places, place ∈ others)
    (name : String) (hvisible : Visible schema places name) : Visible schema others name := by
  obtain ⟨place, hplace, htable⟩ := hvisible
  exact ⟨place, hplaces place hplace, htable⟩

/-! ## Clauses -/

/-- A column that is found at a place refers to the table there. -/
theorem column_refersTo {name : String} {column : Catalog.ResolvedColumn} (hplace : place.Keyed)
    (hname : KeyName name) (hexact : Memo.Exact schema memo)
    (hrun : Succeeds (schema.column ⟨name, place⟩) memo column after) :
    column.expression.RefersTo (Visible schema [place]) ∧ Memo.Exact schema after := by
  obtain ⟨htable, -, hafter⟩ := Schema.column_exact ⟨hplace, hname⟩ hexact hrun
  refine ⟨Sql.Expr.refersTo_ofTable.mpr ?_, hafter⟩
  exact ⟨place, List.mem_singleton_self place, column.table, htable, rfl⟩

namespace Predicate

section Operators

variable {names : String → Prop} {column : Sql.Expr} (hcolumn : column.RefersTo names)

include hcolumn

theorem comparison_refersTo (relation : Comparison) (value : Json) :
    (comparison column relation value).RefersTo names := by
  have hliteral : (Sql.Expr.ofJson value).RefersTo names := Sql.Expr.refersTo_literal _
  have hbinary (operator : Sql.BinaryOperator) :
      (Sql.Expr.binary operator column (.ofJson value)).RefersTo names :=
    Sql.Expr.refersTo_binary.mpr ⟨hcolumn, hliteral⟩
  unfold comparison
  split
  · exact hcolumn
  · exact hcolumn
  · exact hbinary _

theorem truthTest_refersTo {name : String} {value : Json} {negated : Bool} {planned : Sql.Expr}
    (htest : truthTest name column value negated = .ok planned) : planned.RefersTo names := by
  rw [truthTest] at htest
  split at htest
  · obtain rfl := Except.ok.inj htest
    exact hcolumn
  · cases htest

theorem contains_refersTo (pattern : String) (caseSensitive negated : Bool) :
    (contains column pattern caseSensitive negated).RefersTo names :=
  Sql.Expr.refersTo_like.mpr ⟨hcolumn, Sql.Expr.refersTo_literal _⟩

theorem member_refersTo (values : List Json) (negated : Bool) :
    (member column values negated).RefersTo names := by
  rw [member_eq_literals]
  exact Sql.Expr.refersTo_member.mpr hcolumn

theorem directNegation?_refersTo {name : String} {operator : Operator} {planned : Sql.Expr}
    (hdirect : directNegation? name column operator = some (.ok planned)) :
    planned.RefersTo names := by
  unfold directNegation? at hdirect
  split at hdirect
  · exact truthTest_refersTo hcolumn (Option.some.inj hdirect)
  · obtain rfl := Except.ok.inj (Option.some.inj hdirect)
    exact comparison_refersTo hcolumn .ne _
  · obtain rfl := Except.ok.inj (Option.some.inj hdirect)
    exact contains_refersTo hcolumn _ _ true
  · obtain rfl := Except.ok.inj (Option.some.inj hdirect)
    exact member_refersTo hcolumn _ true
  all_goals cases hdirect

end Operators

section Connectives

variable {names : String → Prop} {left right : Option Sql.Expr}
  (hleft : ∀ planned ∈ left, planned.RefersTo names)
  (hright : ∀ planned ∈ right, planned.RefersTo names)

include hleft hright

theorem merge_refersTo {operator : Sql.BinaryOperator} :
    ∀ planned ∈ Option.merge (.binary operator) left right, planned.RefersTo names := by
  intro planned hplanned
  rcases left with _ | left <;> rcases right with _ | right
  · cases hplanned
  · exact hright planned hplanned
  · exact hleft planned hplanned
  · cases hplanned
    exact Sql.Expr.refersTo_binary.mpr ⟨hleft left rfl, hright right rfl⟩

theorem both?_refersTo : ∀ planned ∈ both? left right, planned.RefersTo names := by
  rw [both?_eq_merge]
  exact merge_refersTo hleft hright

theorem either?_refersTo : ∀ planned ∈ either? left right, planned.RefersTo names := by
  rw [either?_eq_merge]
  exact merge_refersTo hleft hright

end Connectives

mutual

/-- The predicate of an operator refers to what its column refers to. -/
theorem ofOperator_refersTo {names : String → Prop} {column : Sql.Expr}
    (hcolumn : column.RefersTo names) {name : String} :
    ∀ {operator : Operator} {predicate : Option Sql.Expr},
      ofOperator name column operator = .ok predicate →
        ∀ planned ∈ predicate, planned.RefersTo names
  | .compare relation value, _, hplanned => by
      rw [ofOperator] at hplanned
      obtain rfl := Except.ok.inj hplanned
      rintro _ ⟨⟩
      exact comparison_refersTo hcolumn relation value
  | .is value, _, hplanned => by
      rw [ofOperator] at hplanned
      obtain ⟨test, htest, rfl⟩ := map_ok_iff.mp hplanned
      rintro _ ⟨⟩
      exact truthTest_refersTo hcolumn htest
  | .like pattern caseSensitive, _, hplanned => by
      rw [ofOperator] at hplanned
      obtain rfl := Except.ok.inj hplanned
      rintro _ ⟨⟩
      exact contains_refersTo hcolumn pattern caseSensitive false
  | .set values, _, hplanned => by
      rw [ofOperator] at hplanned
      obtain rfl := Except.ok.inj hplanned
      rintro _ ⟨⟩
      exact member_refersTo hcolumn values false
  | .not operator, _, hplanned => by
      rw [ofOperator] at hplanned
      split at hplanned
      · next outcome hdirect =>
          obtain ⟨planned, rfl, rfl⟩ := map_ok_iff.mp hplanned
          rintro _ ⟨⟩
          exact directNegation?_refersTo hcolumn hdirect
      · obtain ⟨inner, hinner, rfl⟩ := map_ok_iff.mp hplanned
        intro planned hmem
        obtain ⟨operand, hoperand, rfl⟩ := Option.map_eq_some_iff.mp hmem
        exact ofOperator_refersTo hcolumn hinner operand hoperand
  | .range lower upper, _, hplanned => by
      rw [ofOperator] at hplanned
      obtain ⟨first, hlower, hplanned⟩ := bind_ok_iff.mp hplanned
      obtain ⟨second, hupper, hplanned⟩ := bind_ok_iff.mp hplanned
      obtain rfl := Except.ok.inj hplanned
      exact both?_refersTo (ofBound_refersTo hcolumn hlower) (ofBound_refersTo hcolumn hupper)
  | .sort _, _, hplanned => by
      rw [ofOperator] at hplanned
      cases hplanned

theorem ofBound_refersTo {names : String → Prop} {column : Sql.Expr}
    (hcolumn : column.RefersTo names) {name : String} :
    ∀ {bound : Option Operator} {predicate : Option Sql.Expr},
      ofBound name column bound = .ok predicate →
        ∀ planned ∈ predicate, planned.RefersTo names
  | none, _, hplanned => by
      rw [ofBound] at hplanned
      obtain rfl := Except.ok.inj hplanned
      exact nofun
  | some operator, _, hplanned => by
      rw [ofBound] at hplanned
      exact ofOperator_refersTo hcolumn hplanned

end

/-- All planned predicates refer to names of a kind. -/
def ReferTo (names : String → Prop) (results : List (Option Sql.Expr)) : Prop :=
  ∀ result ∈ results, ∀ planned ∈ result, planned.RefersTo names

theorem combine_refersTo {names : String → Prop}
    {operation : Option Sql.Expr → Option Sql.Expr → Option Sql.Expr}
    {results next : List (Option Sql.Expr)}
    (hoperation : ∀ {left right : Option Sql.Expr}, (∀ planned ∈ left, planned.RefersTo names) →
      (∀ planned ∈ right, planned.RefersTo names) →
        ∀ planned ∈ operation left right, planned.RefersTo names)
    (hresults : ReferTo names results) (hcombine : combine place operation results = .ok next) :
    ReferTo names next := by
  unfold combine at hcombine
  split at hcombine
  · obtain rfl := Except.ok.inj hcombine
    obtain ⟨hright, hresults⟩ := List.forall_mem_cons.mp hresults
    obtain ⟨hleft, hothers⟩ := List.forall_mem_cons.mp hresults
    exact List.forall_mem_cons.mpr ⟨hoperation hleft hright, hothers⟩
  · cases hcombine

/-- The results of a listing refer to the table at its place. -/
theorem ReduceRun.refersTo (hplace : place.Keyed) {expression : Expression}
    {results final : List (Option Sql.Expr)} (hnamed : Expression.Named KeyName expression)
    (hexact : Memo.Exact schema memo) (hresults : ReferTo (Visible schema [place]) results)
    (hrun : ReduceRun schema place memo results expression final after) :
    ReferTo (Visible schema [place]) final ∧ Memo.Exact schema after := by
  induction hrun with
  | nil => exact ⟨hresults, hexact⟩
  | clause hclause _ ih =>
      obtain ⟨hname, hrest⟩ := List.forall_mem_cons.mp hnamed
      obtain ⟨column, hfound, hplanned⟩ := ofClause_run hclause
      obtain ⟨hcolumn, hmiddle⟩ := column_refersTo hplace hname hexact hfound
      exact ih hrest hmiddle
        (List.forall_mem_cons.mpr ⟨ofOperator_refersTo hcolumn hplanned, hresults⟩)
  | and hcombine _ ih =>
      exact ih hnamed hexact (combine_refersTo both?_refersTo hresults hcombine)
  | or hcombine _ ih =>
      exact ih hnamed hexact (combine_refersTo either?_refersTo hresults hcombine)

theorem ofExpression_refersTo (hplace : place.Keyed) {expression : Expression}
    {predicate : Option Sql.Expr} (hnamed : Expression.Named KeyName expression)
    (hexact : Memo.Exact schema memo)
    (hrun : Succeeds (ofExpression schema place expression) memo predicate after) :
    (∀ planned ∈ predicate, planned.RefersTo (Visible schema [place])) ∧
      Memo.Exact schema after := by
  rcases ofExpression_succeeds hrun with ⟨rfl, rfl⟩ | hreduce
  · exact ⟨nofun, hexact⟩
  · obtain ⟨hfinal, hafter⟩ := (reduce_run hreduce).refersTo hplace hnamed hexact
      fun _ hnone => absurd hnone List.not_mem_nil
    exact ⟨hfinal predicate (List.mem_singleton_self predicate), hafter⟩

end Predicate

/-- Sort keys refer to the table at their place. -/
theorem SortKeys.ofExpression_refersTo (hplace : place.Keyed) {expression : Expression}
    {memo after : Memo} {keys : List Sql.SortKey} (hnamed : Expression.Named KeyName expression)
    (hexact : Memo.Exact schema memo)
    (hrun : Succeeds (ofExpression schema place expression) memo keys after) :
    (∀ key ∈ keys, key.expression.RefersTo (Visible schema [place])) ∧
      Memo.Exact schema after := by
  replace hrun := ofExpression_run hrun
  induction hrun with
  | nil => exact ⟨fun _ hnone => absurd hnone List.not_mem_nil, hexact⟩
  | clause hclause _ ih =>
      obtain ⟨hname, hrest⟩ := List.forall_mem_cons.mp hnamed
      obtain ⟨column, direction, hfound, -, rfl⟩ := ofClause_run hclause
      obtain ⟨hcolumn, hmiddle⟩ := column_refersTo hplace hname hexact hfound
      obtain ⟨hkeys, hafter⟩ := ih hrest hmiddle
      exact ⟨List.forall_mem_cons.mpr ⟨hcolumn, hkeys⟩, hafter⟩
  | and _ ih => exact ih hnamed hexact

end Plan

end TreeQuery
