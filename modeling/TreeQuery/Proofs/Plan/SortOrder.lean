import TreeQuery.Proofs.Plan.CollectedClauses

/-!
# Sort orders collected from several expressions

Expressions that order are put one behind another with conjunction markers between and behind
them.  The markers settle keys that wait and add none, so the keys come in the order in which
their clauses were given.  A disjunction marker is kept where it stands, and refused.
-/

namespace TreeQuery

namespace Expression

/-- Two expressions that are put together keep their clauses. -/
theorem clauses_combine (left right : Expression) :
    clauses (combine left right .and) = clauses left ++ clauses right := by
  rw [combine]
  split
  · next hleft => rw [List.isEmpty_iff.mp hleft]; rfl
  · split
    · next hright => rw [List.isEmpty_iff.mp hright]; exact (List.append_nil _).symm
    · simp [clauses, Term.clause?]

theorem or_mem_combine {left right : Expression} :
    .or ∈ combine left right .and ↔ .or ∈ left ∨ .or ∈ right := by
  rw [combine]
  split
  · next hleft => simp [List.isEmpty_iff.mp hleft]
  · split
    · next hright => simp [List.isEmpty_iff.mp hright]
    · simp

/-- The expressions that order, by their first clauses. -/
def orderings (expressions : List Expression) : List Expression :=
  expressions.filter fun expression => category expression = some .order

theorem mem_orderings {expressions : List Expression} {expression : Expression} :
    expression ∈ orderings expressions ↔
      expression ∈ expressions ∧ category expression = some .order := by
  simp [orderings]

theorem orderings_cons (first : Expression) (rest : List Expression) :
    orderings (first :: rest) =
      if category first = some .order then first :: orderings rest else orderings rest := by
  simp [orderings, List.filter_cons]

/-- Expressions joined one after another to what is there. -/
def conjoined (start : Expression) (expressions : List Expression) : Expression :=
  expressions.foldl (fun joined expression => combine joined expression .and) start

theorem clauses_conjoined (start : Expression) (expressions : List Expression) :
    clauses (conjoined start expressions) = clauses start ++ expressions.flatMap clauses := by
  induction expressions generalizing start with
  | nil => exact (List.append_nil _).symm
  | cons first rest ih =>
      calc clauses (conjoined start (first :: rest))
          = clauses (combine start first .and) ++ rest.flatMap clauses := ih _
        _ = clauses start ++ (first :: rest).flatMap clauses := by
          rw [clauses_combine, List.append_assoc, List.flatMap_cons]

theorem or_mem_conjoined {start : Expression} {expressions : List Expression} :
    .or ∈ conjoined start expressions ↔
      .or ∈ start ∨ ∃ expression ∈ expressions, .or ∈ expression := by
  induction expressions generalizing start with
  | nil => simp [conjoined]
  | cons first rest ih =>
      calc .or ∈ conjoined start (first :: rest)
          ↔ .or ∈ combine start first .and ∨ ∃ expression ∈ rest, .or ∈ expression := ih
        _ ↔ .or ∈ start ∨ ∃ expression ∈ first :: rest, .or ∈ expression := by
          rw [or_mem_combine, or_assoc, List.exists_mem_cons_iff]

/-- Every clause of a uniform expression that orders gives a direction. -/
theorem exists_direction {expression : Expression} {clause : Clause}
    (huniform : isUniform expression = true) (horders : category expression = some .order)
    (hclause : clause ∈ clauses expression) :
    ∃ direction, clause.operator = .sort direction := by
  have hcategory := (category_of_uniform huniform hclause).symm.trans horders
  cases hoperator : clause.operator with
  | sort direction => exact ⟨direction, rfl⟩
  | _ =>
      rw [hoperator] at hcategory
      cases hcategory

end Expression

namespace Plan

open Catalog (Memo Schema)
open Expression (conjoined orderings orderings_cons)

variable {schema : Schema} {path : Path} {memo now : Memo} {expression : Expression}

namespace SortKeys

/-- The column of a clause is found. -/
def Resolves (schema : Schema) (path : Path) (memo : Memo) (clause : Clause) : Prop :=
  ∃ column after, Succeeds (schema.column ⟨clause.column, path⟩) memo column after

/-- A sort key is that of a clause: it is the column of the clause, in its direction. -/
def KeyOf (schema : Schema) (path : Path) (memo : Memo) (clause : Clause)
    (key : Sql.SortKey) : Prop :=
  ∃ column after direction, Succeeds (schema.column ⟨clause.column, path⟩) memo column after ∧
    clause.operator = .sort direction ∧ key = ⟨column.expression, some direction⟩

/-- The clauses of an expression name columns that are found, and give directions. -/
def Sorts (schema : Schema) (path : Path) (memo : Memo) (expression : Expression) : Prop :=
  ∀ clause ∈ Expression.clauses expression,
    Resolves schema path memo clause ∧ ∃ direction, clause.operator = .sort direction

/-- A clause gives its key, whatever was asked about its path before. -/
theorem ofClause_gives {clause : Clause} (hgrows : Memo.Grows schema (· = path) memo now)
    (hcolumn : Resolves schema path memo clause)
    (hdirection : ∃ direction, clause.operator = .sort direction) :
    ∃ key later, Succeeds (ofClause schema path clause) now key later ∧
      KeyOf schema path memo clause key ∧ Memo.Grows schema (· = path) memo later := by
  obtain ⟨column, after, hcolumn⟩ := hcolumn
  obtain ⟨direction, hdirection⟩ := hdirection
  obtain ⟨hanswer, -⟩ := Schema.columnAt_succeeds hcolumn
  obtain ⟨later, hagain⟩ := Schema.column_again hgrows hanswer
  have hclause : Succeeds (ofClause schema path clause) now
      ⟨column.expression, some direction⟩ later := by
    rw [ofClause, hdirection]
    apply Succeeds.bind_iff.mpr
    exact ⟨column, later, Succeeds.adapt_iff.mpr hagain, Succeeds.pure_iff.mpr ⟨rfl, rfl⟩⟩
  exact ⟨_, later, hclause, ⟨column, after, direction, hcolumn, hdirection, rfl⟩,
    hgrows.trans (ofClause_grows hclause)⟩

/-- Without disjunction markers, every clause gives its key, in order. -/
theorem ofExpression_gives (hgrows : Memo.Grows schema (· = path) memo now)
    (hsorts : Sorts schema path memo expression) (hor : .or ∉ expression) :
    ∃ keys after, Succeeds (ofExpression schema path expression) now keys after ∧
      List.Forall₂ (KeyOf schema path memo) (Expression.clauses expression) keys := by
  induction expression generalizing now with
  | nil => exact ⟨[], now, Succeeds.pure_iff.mpr ⟨rfl, rfl⟩, .nil⟩
  | cons term rest ih =>
      have hrestOr : .or ∉ rest := fun hmem => hor (List.mem_cons_of_mem _ hmem)
      cases term with
      | clause clause =>
          obtain ⟨⟨hcolumn, hdirection⟩, hrest⟩ := List.forall_mem_cons.mp hsorts
          obtain ⟨key, later, hclause, hkey, hlater⟩ := ofClause_gives hgrows hcolumn hdirection
          obtain ⟨keys, after, hkeys, hall⟩ := ih hlater hrest hrestOr
          refine ⟨key :: keys, after, ?_, .cons hkey hall⟩
          rw [ofExpression_clause]
          exact Succeeds.bind_iff.mpr ⟨key, later, hclause, Succeeds.bind_iff.mpr
            ⟨keys, after, hkeys, Succeeds.pure_iff.mpr ⟨rfl, rfl⟩⟩⟩
      | and =>
          rw [ofExpression_and]
          exact ih hgrows hsorts hrestOr
      | or => exact absurd List.mem_cons_self hor

/-- The first disjunction marker is refused. -/
theorem ofExpression_refuses (hgrows : Memo.Grows schema (· = path) memo now)
    (hsorts : Sorts schema path memo expression) (hor : .or ∈ expression) :
    Fails (ofExpression schema path expression) now
      (.malformed (.alternativeSort path.outputName)) := by
  induction expression generalizing now with
  | nil => cases hor
  | cons term rest ih =>
      cases term with
      | clause clause =>
          obtain ⟨⟨hcolumn, hdirection⟩, hrest⟩ := List.forall_mem_cons.mp hsorts
          obtain ⟨key, later, hclause, -, hlater⟩ := ofClause_gives hgrows hcolumn hdirection
          have hrestOr : .or ∈ rest := List.mem_of_ne_of_mem (by simp) hor
          rw [ofExpression_clause]
          exact Fails.bind_next hclause (Fails.bind (ih hlater hrest hrestOr))
      | and =>
          rw [ofExpression_and]
          exact ih hgrows hsorts (List.mem_of_ne_of_mem (by simp) hor)
      | or =>
          rw [ofExpression_or]
          exact Fails.throw _ _

end SortKeys

namespace ClauseSet

open SortKeys (KeyOf Resolves Sorts)

/-- Uniform expressions are all collected, and those that order are joined in their order. -/
theorem pushAll_order {expressions : List Expression} (start : ClauseSet)
    (huniform : ∀ expression ∈ expressions, Expression.isUniform expression = true) :
    ∃ finish, expressions.foldlM push start = .ok finish ∧
      finish.order = conjoined start.order (orderings expressions) := by
  induction expressions generalizing start with
  | nil => exact ⟨start, rfl, rfl⟩
  | cons first rest ih =>
      obtain ⟨hfirst, hrest⟩ := List.forall_mem_cons.mp huniform
      rw [List.foldlM_cons, push_eq, if_pos hfirst, orderings_cons]
      obtain ⟨finish, hfinish, horder⟩ := ih _ hrest
      refine ⟨finish, hfinish, horder.trans ?_⟩
      by_cases horders : Expression.category first = some .order
      · rw [if_pos horders, if_pos horders]
        rfl
      · rw [if_neg horders, if_neg horders]

/-- Of uniform expressions, those that order give sort keys exactly when none of them holds a
disjunction marker.  There is one key for each of their clauses, in the order in which the
expressions were collected and in which their clauses stand; a disjunction marker is refused. -/
theorem collected_order_sorts {expressions : List Expression}
    (huniform : ∀ expression ∈ expressions, Expression.isUniform expression = true)
    (hresolves : ∀ expression ∈ orderings expressions,
      ∀ clause ∈ Expression.clauses expression, Resolves schema path memo clause) :
    ∃ collected, expressions.foldlM push {} = .ok collected ∧
      ((∃ keys after,
          Succeeds (SortKeys.ofExpression schema path collected.order) memo keys after) ↔
        ∀ expression ∈ orderings expressions, .or ∉ expression) ∧
      (∀ keys after,
        Succeeds (SortKeys.ofExpression schema path collected.order) memo keys after →
          List.Forall₂ (KeyOf schema path memo)
            ((orderings expressions).flatMap Expression.clauses) keys) ∧
      ((∃ expression ∈ orderings expressions, .or ∈ expression) →
        Fails (SortKeys.ofExpression schema path collected.order) memo
          (.malformed (.alternativeSort path.outputName))) := by
  obtain ⟨collected, hpush, horder⟩ := pushAll_order {} huniform
  have hclauses : Expression.clauses collected.order =
      (orderings expressions).flatMap Expression.clauses := by
    rw [horder, Expression.clauses_conjoined]
    rfl
  have hor : .or ∈ collected.order ↔ ∃ expression ∈ orderings expressions, .or ∈ expression := by
    rw [horder, Expression.or_mem_conjoined]
    exact or_iff_right List.not_mem_nil
  have hsorts : Sorts schema path memo collected.order := by
    intro clause hclause
    rw [hclauses] at hclause
    obtain ⟨expression, hexpression, hclause⟩ := List.mem_flatMap.mp hclause
    obtain ⟨hmem, horders⟩ := Expression.mem_orderings.mp hexpression
    exact ⟨hresolves expression hexpression clause hclause,
      Expression.exists_direction (huniform expression hmem) horders hclause⟩
  by_cases hsome : ∃ expression ∈ orderings expressions, .or ∈ expression
  · have hrefused := SortKeys.ofExpression_refuses .refl hsorts (hor.mpr hsome)
    have hnever : ∀ keys after,
        ¬ Succeeds (SortKeys.ofExpression schema path collected.order) memo keys after :=
      fun keys after hrun => hrefused.not_succeeds hrun
    refine ⟨collected, hpush, iff_of_false ?_ ?_, fun keys after hrun => ?_, fun _ => hrefused⟩
    · exact fun ⟨keys, after, hrun⟩ => hnever keys after hrun
    · push Not
      exact hsome
    · exact absurd hrun (hnever keys after)
  · obtain ⟨keys, after, hrun, hall⟩ :=
      SortKeys.ofExpression_gives .refl hsorts (mt hor.mp hsome)
    rw [hclauses] at hall
    refine ⟨collected, hpush, iff_of_true ⟨keys, after, hrun⟩ ?_, fun others later hother => ?_,
      fun hor => absurd hor hsome⟩
    · exact fun expression hexpression hmem => hsome ⟨expression, hexpression, hmem⟩
    · exact hother.value_eq hrun ▸ hall

/-- The latest books first, with markers around, titles of guides or late numbers, a marker
alone, and the order of numbers. -/
def latestBooks : List Expression :=
  [[.and, .clause ⟨"year", .sort .descending⟩, .clause ⟨"title", .sort .ascending⟩, .and, .and],
    [.clause ⟨"title", .like "guide" false⟩, .clause ⟨"id", .compare .ge (.int 3)⟩, .or],
    [.or], [.clause ⟨"id", .sort .ascending⟩]]

theorem collected_order_sorts_latestBooks :
    ∃ collected keys after, latestBooks.foldlM push {} = .ok collected ∧
      Succeeds (SortKeys.ofExpression Predicate.bookshelf [{ name := "book" }] collected.order) {}
        keys after ∧
      List.Forall₂ (KeyOf Predicate.bookshelf [{ name := "book" }] {})
        [⟨"year", .sort .descending⟩, ⟨"title", .sort .ascending⟩, ⟨"id", .sort .ascending⟩]
        keys := by
  have huniform : ∀ expression ∈ latestBooks, Expression.isUniform expression = true := by decide
  have horderings : orderings latestBooks =
      [[.and, .clause ⟨"year", .sort .descending⟩, .clause ⟨"title", .sort .ascending⟩, .and,
        .and], [.clause ⟨"id", .sort .ascending⟩]] := rfl
  have hresolves : ∀ expression ∈ orderings latestBooks,
      ∀ clause ∈ Expression.clauses expression,
        Resolves Predicate.bookshelf [{ name := "book" }] {} clause := by
    intro expression hexpression clause hclause
    simp only [horderings, List.mem_cons, List.not_mem_nil, or_false] at hexpression
    rcases hexpression with rfl | rfl
    · have hlisted : clause ∈ ([⟨"year", .sort .descending⟩, ⟨"title", .sort .ascending⟩] :
          List Clause) := hclause
      simp only [List.mem_cons, List.not_mem_nil, or_false] at hlisted
      rcases hlisted with rfl | rfl <;> exact ⟨_, _, rfl⟩
    · obtain rfl := List.mem_singleton.mp hclause
      exact ⟨_, _, rfl⟩
  obtain ⟨collected, hpush, hsucceeds, hkeys, -⟩ := collected_order_sorts huniform hresolves
  obtain ⟨keys, after, hrun⟩ := hsucceeds.mpr (by simp [horderings])
  exact ⟨collected, keys, after, hpush, hrun, hkeys keys after hrun⟩

end ClauseSet

end Plan

end TreeQuery
