import TreeQuery.Plan.ClauseSet
import TreeQuery.Proofs.Plan.Formulas

/-!
# Filters collected from several expressions

The expressions of a bucket are judged together: those that filter are put one behind
another with a marker for each, and what has no clause is dropped.  An expression made up of
listings leaves at least as many formulas behind as it has, so leftovers of one never
vanish in another.  A marker that lacks an operand in its own expression may find one in the
expression before, and then malformed neighbours pass together.
-/

namespace TreeQuery

open Formula (listings joined?)

namespace Expression

/-- An expression that may filter: one of its clauses does, or it has no clause. -/
def MayFilter (expression : Expression) : Prop :=
  clauses expression = [] ∨ ∃ clause ∈ clauses expression, clause.operator.category = .filter

/-- An expression made up of listings: every marker finds its operands in it. -/
def HoldsOperands (expression : Expression) : Prop :=
  ∃ formulas, listings formulas = expression

/-- An expression that is empty or lists one formula. -/
def WellFormed (expression : Expression) : Prop :=
  expression = [] ∨ ∃ formula : Formula Clause, formula.listing = expression

theorem WellFormed.holdsOperands {expression : Expression} (hwell : WellFormed expression) :
    HoldsOperands expression := by
  rcases hwell with rfl | ⟨formula, rfl⟩
  · exact ⟨[], rfl⟩
  · exact ⟨[formula], rfl⟩

/-- Of two listings or more, an expression is not well formed. -/
theorem WellFormed.length_le {formulas : List (Formula Clause)}
    (hwell : WellFormed (listings formulas)) : formulas.length ≤ 1 := by
  rcases hwell with hempty | ⟨formula, hlisting⟩
  · have hnone : formulas = [] := listings_injective hempty
    rw [hnone]
    exact Nat.zero_le 1
  · have hone : [formula] = formulas := listings_injective hlisting
    rw [← hone]
    exact le_rfl

theorem wellFormed_listings {formulas : List (Formula Clause)} (hlength : formulas.length ≤ 1) :
    WellFormed (listings formulas) := by
  match formulas, hlength with
  | [], _ => exact .inl rfl
  | [formula], _ => exact .inr ⟨formula, rfl⟩

/-- What does not leave one formula on the stack is malformed, the empty expression apart. -/
theorem not_wellFormed {expression : Expression} (hne : expression ≠ [])
    (hread : ∀ formula, formulas? [] expression ≠ some [formula]) : ¬ WellFormed expression := by
  rintro (hempty | ⟨formula, hlisting⟩)
  · exact hne hempty
  · exact hread formula (formulas?_eq_singleton_iff.mpr hlisting)

/-- Listings without clauses are none. -/
theorem eq_nil_of_clauses {formulas : List (Formula Clause)}
    (hclauses : clauses (listings formulas) = []) : formulas = [] := by
  cases formulas with
  | nil => rfl
  | cons last before =>
      rw [listings, clauses, List.filterMap_append, List.append_eq_nil_iff] at hclauses
      exact absurd hclauses.2 last.clauses_listing_ne_nil

/-- With uniform clauses, the category of any clause is that of the expression. -/
theorem category_of_uniform {expression : Expression} {clause : Clause}
    (huniform : isUniform expression = true) (hclause : clause ∈ clauses expression) :
    category expression = some clause.operator.category := by
  have hmember : clause.operator.category ∈ categories expression :=
    List.mem_map_of_mem hclause
  unfold isUniform at huniform
  unfold category
  cases hcategories : categories expression with
  | nil =>
      rw [hcategories] at hmember
      cases hmember
  | cons first rest =>
      rw [hcategories] at huniform hmember
      rcases List.mem_cons.mp hmember with hfirst | hrest
      · rw [List.head?_cons, hfirst]
      · rw [List.head?_cons, eq_of_beq (List.all_eq_true.mp huniform _ hrest)]

/-- An expression with uniform clauses that filters has a clause that does, and conversely. -/
theorem category_eq_filter_iff {expression : Expression} (huniform : isUniform expression = true) :
    category expression = some .filter ↔
      ∃ clause ∈ clauses expression, clause.operator.category = .filter := by
  constructor
  · intro hcategory
    have hmember : Category.filter ∈ categories expression := List.mem_of_mem_head? hcategory
    exact List.mem_map.mp hmember
  · rintro ⟨clause, hclause, hfilter⟩
    rw [category_of_uniform huniform hclause, hfilter]

theorem isEmpty_listings (last : Formula Clause) (before : List (Formula Clause)) :
    (listings (last :: before)).isEmpty = false := by
  apply Bool.eq_false_iff.mpr
  intro hempty
  have hnone : last :: before = [] := listings_injective (List.isEmpty_iff.mp hempty)
  cases hnone

/-- Put together with a marker, two expressions hold at least as many formulas as either. -/
theorem listings_combine (first second : List (Formula Clause)) :
    ∃ both, listings both = combine (listings first) (listings second) .and ∧
      first.length ≤ both.length ∧ second.length ≤ both.length := by
  cases first with
  | nil => exact ⟨second, rfl, Nat.zero_le _, le_rfl⟩
  | cons firstLast firstBefore =>
      cases second with
      | nil =>
          refine ⟨firstLast :: firstBefore, ?_, le_rfl, Nat.zero_le _⟩
          rw [combine, isEmpty_listings]
          rfl
      | cons secondLast secondBefore =>
          have hlength : 2 ≤ (secondLast :: secondBefore ++ firstLast :: firstBefore).length := by
            simp only [List.length_append, List.length_cons]
            omega
          obtain ⟨both, hjoined⟩ := Formula.exists_joined? .and hlength
          have hboth := Formula.length_of_joined? hjoined
          simp only [List.length_append, List.length_cons] at hboth
          refine ⟨both, ?_, ?_, ?_⟩
          · rw [Formula.listings_of_joined? hjoined, Formula.listings_append, combine,
              isEmpty_listings, isEmpty_listings]
            rfl
          · rw [List.length_cons]
            omega
          · rw [List.length_cons]
            omega

end Expression

namespace Plan.ClauseSet

open Catalog (Memo Schema)
open Expression (HoldsOperands MayFilter WellFormed)

/-- A uniform expression is added to what is collected of its category, and leaves the rest
alone. -/
theorem push_eq (clauses : ClauseSet) (expression : Expression) :
    clauses.push expression =
      if Expression.isUniform expression then
        .ok
          { filter := if Expression.category expression = some .filter
              then Expression.combine clauses.filter expression .and else clauses.filter
            order := if Expression.category expression = some .order
              then Expression.combine clauses.order expression .and else clauses.order }
      else .error (.malformed .mixedCategories) := by
  rw [push]
  split
  · rcases Expression.category expression with _ | _ | _ <;> rfl
  · rfl

theorem push_ok {clauses after : ClauseSet} {expression : Expression}
    (hpush : clauses.push expression = .ok after) :
    Expression.isUniform expression = true ∧ after.filter =
      if Expression.category expression = some .filter
        then Expression.combine clauses.filter expression .and else clauses.filter := by
  rw [push_eq] at hpush
  split at hpush
  · next huniform =>
      obtain rfl := Except.ok.inj hpush
      exact ⟨huniform, rfl⟩
  · cases hpush

/-- Expressions that hold their operands are collected into one that does, too.  It has as
many formulas as any of those that filter. -/
theorem pushAll_listings {expressions : List Expression} :
    ∀ {start finish : ClauseSet} {formulas : List (Formula Clause)},
      expressions.foldlM push start = .ok finish → listings formulas = start.filter →
      (∀ expression ∈ expressions, MayFilter expression → HoldsOperands expression) →
        ∃ collected, listings collected = finish.filter ∧ formulas.length ≤ collected.length ∧
          ∀ expression ∈ expressions, MayFilter expression →
            ∃ own, listings own = expression ∧ own.length ≤ collected.length := by
  induction expressions with
  | nil =>
      intro start finish formulas hpush hstart _
      obtain rfl := Except.ok.inj hpush
      exact ⟨formulas, hstart, le_rfl, by simp⟩
  | cons first rest ih =>
      intro start finish formulas hpush hstart hoperands
      obtain ⟨hfirstOperands, hrestOperands⟩ := List.forall_mem_cons.mp hoperands
      rw [List.foldlM_cons] at hpush
      obtain ⟨middle, hfirst, hrest⟩ := bind_ok_iff.mp hpush
      obtain ⟨huniform, hfilter⟩ := push_ok hfirst
      by_cases hcategory : Expression.category first = some .filter
      · have hfilters := (Expression.category_eq_filter_iff huniform).mp hcategory
        obtain ⟨own, hown⟩ := hfirstOperands (.inr hfilters)
        obtain ⟨both, hboth, hformulas, hownLength⟩ := Expression.listings_combine formulas own
        rw [if_pos hcategory, ← hstart, ← hown, ← hboth] at hfilter
        obtain ⟨collected, hcollected, hlength, hothers⟩ := ih hrest hfilter.symm hrestOperands
        refine ⟨collected, hcollected, hformulas.trans hlength,
          List.forall_mem_cons.mpr ⟨fun _ => ⟨own, hown, hownLength.trans hlength⟩, hothers⟩⟩
      · rw [if_neg hcategory, ← hstart] at hfilter
        obtain ⟨collected, hcollected, hlength, hothers⟩ := ih hrest hfilter.symm hrestOperands
        refine ⟨collected, hcollected, hlength,
          List.forall_mem_cons.mpr ⟨fun hmay => ?_, hothers⟩⟩
        -- without a clause that filters, the expression has no clause and is dropped
        obtain ⟨own, rfl⟩ := hfirstOperands hmay
        rcases hmay with hclauses | hfilters
        · rw [Expression.eq_nil_of_clauses hclauses]
          exact ⟨[], rfl, Nat.zero_le _⟩
        · exact absurd ((Expression.category_eq_filter_iff huniform).mpr hfilters) hcategory

variable {schema : Schema} {path : Path} {memo after : Memo}

/-- The expressions behind a filter that is planned are well formed exactly when every marker
of theirs finds its operands in its own expression. -/
theorem pushed_wellFormed_iff {expressions : List Expression} {collected : ClauseSet}
    {predicate : Option Sql.Expr} (hpush : expressions.foldlM push {} = .ok collected)
    (hplanned : Succeeds (Predicate.ofExpression schema path collected.filter) memo predicate
      after) :
    (∀ expression ∈ expressions, MayFilter expression → WellFormed expression) ↔
      ∀ expression ∈ expressions, MayFilter expression → HoldsOperands expression := by
  constructor
  · intro hwell expression hexpression hmay
    exact (hwell expression hexpression hmay).holdsOperands
  · intro hoperands expression hexpression hmay
    have hstart : listings [] = ({} : ClauseSet).filter := rfl
    obtain ⟨formulas, hfilter, -, hown⟩ := pushAll_listings hpush hstart hoperands
    have hone : formulas.length ≤ 1 := by
      apply WellFormed.length_le
      rw [hfilter]
      exact Predicate.ofExpression_lists hplanned
    obtain ⟨own, rfl, hlength⟩ := hown expression hexpression hmay
    exact Expression.wellFormed_listings (hlength.trans hone)

/-- The titles of guides, what is early in number or in year, and the latest first. -/
def earlyGuides : List Expression :=
  [[.clause ⟨"title", .like "guide" false⟩],
    [.clause ⟨"id", .compare .lt (.int 10)⟩, .clause ⟨"year", .compare .le (.int 1990)⟩, .or],
    [.clause ⟨"year", .sort .descending⟩], []]

theorem pushed_wellFormed_iff_earlyGuides :
    ∃ collected predicate after, earlyGuides.foldlM push {} = .ok collected ∧
      Succeeds (Predicate.ofExpression Predicate.bookshelf [{ name := "book" }] collected.filter)
        {} predicate after ∧
      ∀ expression ∈ earlyGuides, MayFilter expression → WellFormed expression := by
  obtain ⟨collected, predicate, after, hpush, hplanned⟩ :
      ∃ collected predicate after, earlyGuides.foldlM push {} = .ok collected ∧
        Succeeds (Predicate.ofExpression Predicate.bookshelf [{ name := "book" }]
          collected.filter) {} predicate after := ⟨_, _, _, rfl, rfl⟩
  refine ⟨collected, predicate, after, hpush, hplanned,
    (pushed_wellFormed_iff hpush hplanned).mpr ?_⟩
  intro expression hexpression hmay
  simp only [earlyGuides, List.mem_cons, List.not_mem_nil, or_false] at hexpression
  rcases hexpression with rfl | rfl | rfl | rfl
  · exact ⟨[.part _], rfl⟩
  · exact ⟨[.join .or (.part _) (.part _)], rfl⟩
  · rcases hmay with hnone | ⟨clause, hclause, hfilter⟩
    · cases hnone
    · obtain rfl := List.mem_singleton.mp hclause
      cases hfilter
  · exact ⟨[], rfl⟩

/-- Two clauses without a marker, a marker in front of its operand, and a marker alone. -/
def borrowedOperands : List Expression :=
  [[.clause ⟨"title", .like "guide" false⟩, .clause ⟨"id", .compare .ge (.int 3)⟩],
    [.and, .clause ⟨"year", .compare .eq (.int 1990)⟩], [.and]]

/-- All three are malformed, and together they are accepted. -/
theorem malformed_neighbours_accepted :
    ∃ collected predicate keys middle after, borrowedOperands.foldlM push {} = .ok collected ∧
      Succeeds (Predicate.ofExpression Predicate.bookshelf [{ name := "book" }] collected.filter)
        {} (some predicate) middle ∧
      Succeeds (SortKeys.ofExpression Predicate.bookshelf [{ name := "book" }] collected.order)
        middle keys after ∧
      ∀ expression ∈ borrowedOperands, MayFilter expression ∧ ¬ WellFormed expression := by
  refine ⟨_, _, _, _, _, rfl, rfl, rfl, ?_⟩
  intro expression hexpression
  simp only [borrowedOperands, List.mem_cons, List.not_mem_nil, or_false] at hexpression
  rcases hexpression with rfl | rfl | rfl
  · refine ⟨.inr ⟨_, List.mem_cons_self, rfl⟩, Expression.not_wellFormed (List.cons_ne_nil _ _) ?_⟩
    intro formula hread
    cases hread
  · refine ⟨.inr ⟨_, List.mem_cons_self, rfl⟩, Expression.not_wellFormed (List.cons_ne_nil _ _) ?_⟩
    intro formula hread
    cases hread
  · refine ⟨.inl rfl, Expression.not_wellFormed (List.cons_ne_nil _ _) ?_⟩
    intro formula hread
    cases hread

end Plan.ClauseSet

end TreeQuery
