import TreeQuery.Proofs.Plan.CollectedClauses
import TreeQuery.Proofs.Sql.Places

/-!
# One integer at one place of a request

Requests that are the same but for one integer: a value that a column is compared with, a member
of a set, a value of a row or a count of rows.
-/

namespace TreeQuery

open Sql (Place)

variable {ι : Type} {number : ι → Int}

/-! ## Clauses -/

/-- Operators that are the same but for one integer, which is compared with the column or is a
member of a set. -/
inductive Operator.Carries (number : ι → Int) : (ι → Operator) → Prop
  | compare (relation : Comparison) : Carries number fun i => .compare relation (.int (number i))
  | set (before behind : List Json) :
      Carries number fun i => .set (before ++ .int (number i) :: behind)
  | not {operators : ι → Operator} (hoperators : Carries number operators) :
      Carries number fun i => .not (operators i)
  | lower {operators : ι → Operator} (hoperators : Carries number operators)
      (upper : Option Operator) : Carries number fun i => .range (some (operators i)) upper
  | upper {operators : ι → Operator} (hoperators : Carries number operators)
      (lower : Option Operator) : Carries number fun i => .range lower (some (operators i))

theorem Operator.Carries.category {operators : ι → Operator}
    (hcarries : Carries number operators) (i : ι) : (operators i).category = .filter := by
  cases hcarries <;> rfl

/-- Expressions that are the same but for one integer in one clause. -/
def Expression.Carries (number : ι → Int) (expressions : ι → Expression) : Prop :=
  ∃ (column : String) (operators : ι → Operator), Operator.Carries number operators ∧
    Gap (fun i => Term.clause ⟨column, operators i⟩) expressions

namespace Expression.Carries

variable {expressions : ι → Expression}

theorem isEmpty (hcarries : Carries number expressions) (i : ι) :
    (expressions i).isEmpty = false := by
  obtain ⟨column, operators, -, before, behind, rfl⟩ := hcarries
  simp

/-- Whether the clauses are of one category does not depend on the integer. -/
theorem isUniform (hcarries : Carries number expressions) :
    ∃ uniform, ∀ i, Expression.isUniform (expressions i) = uniform := by
  obtain ⟨column, operators, hoperators, before, behind, rfl⟩ := hcarries
  have hcategories (i : ι) :
      categories (before ++ .clause ⟨column, operators i⟩ :: behind) =
        categories before ++ .filter :: categories behind := by
    simp [categories, clauses, Term.clause?, hoperators.category i]
  simp only [Expression.isUniform, hcategories]
  exact ⟨_, fun _ => rfl⟩

theorem category (hcarries : Carries number expressions) {i : ι}
    (huniform : Expression.isUniform (expressions i) = true) :
    Expression.category (expressions i) = some .filter := by
  obtain ⟨column, operators, hoperators, before, behind, rfl⟩ := hcarries
  have hclause : ⟨column, operators i⟩ ∈
      clauses (before ++ .clause ⟨column, operators i⟩ :: behind) :=
    List.mem_filterMap.mpr ⟨_, List.mem_append_right _ List.mem_cons_self, rfl⟩
  rw [category_of_uniform huniform hclause, hoperators.category i]

theorem combine_left (hcarries : Carries number expressions) (right : Expression)
    (marker : Term) : Carries number fun i => combine (expressions i) right marker := by
  have hsome := hcarries.isEmpty
  obtain ⟨column, operators, hoperators, hgap⟩ := hcarries
  refine ⟨column, operators, hoperators, ?_⟩
  unfold combine
  simp only [hsome]
  cases right.isEmpty with
  | true => exact hgap
  | false => exact (hgap.append_right right).append_right [marker]

theorem combine_right (hcarries : Carries number expressions) (left : Expression)
    (marker : Term) : Carries number fun i => combine left (expressions i) marker := by
  have hsome := hcarries.isEmpty
  obtain ⟨column, operators, hoperators, hgap⟩ := hcarries
  refine ⟨column, operators, hoperators, ?_⟩
  unfold combine
  simp only [hsome]
  cases left.isEmpty with
  | true => exact hgap
  | false => exact (hgap.append_left left).append_right [marker]

end Expression.Carries

/-! ## Rows -/

/-- Rows that are the same but for the integer that they have under one column. -/
def Record.Carries (number : ι → Int) (records : ι → Record) : Prop :=
  ∃ (column : String) (before behind : Record), column ∉ before.map Prod.fst ∧
    records = fun i => before ++ (column, .int (number i)) :: behind

/-! ## Buckets -/

namespace Sql.Place

/-- What an integer of a nested bucket is to the bucket around it, in which counts from below have
no effect. -/
def below : Place → Place
  | value => value
  | limit | offset | idle => idle

/-- What an integer is once a further element is known.  Of two counts of a kind, the later one
has effect. -/
def after : Place → Element → Place
  | limit, .slice (.limit _) => idle
  | offset, .slice (.offset _) => idle
  | place, _ => place

theorem below_after (place : Place) (element : Element) :
    (place.after element).below = place.below := by
  unfold after
  split <;> rfl

/-- A value stays one, whatever comes after it. -/
theorem foldl_after_value (elements : List Element) : elements.foldl after value = value := by
  induction elements with
  | nil => rfl
  | cons element rest ih => exact ih

theorem below_foldl_after (elements : List Element) (place : Place) :
    (elements.foldl after place).below = place.below := by
  induction elements generalizing place with
  | nil => rfl
  | cons element rest ih => rw [List.foldl_cons, ih, below_after]

end Sql.Place

/-- Elements that are the same but for one integer. -/
inductive Element.Carries (number : ι → Int) : Place → (ι → Element) → Prop
  | clause {expressions : ι → Expression} (hexpressions : Expression.Carries number expressions) :
      Carries number .value fun i => .clause (expressions i)
  | row {records : ι → Record} (hrecords : Record.Carries number records) :
      Carries number .value fun i => .item (.row (records i))
  | limit {counts : ι → Nat} (hcounts : ∀ i, (counts i : Int) = number i)
      (hsome : ∀ i, 0 < counts i) : Carries number .limit fun i => .slice (.limit (counts i))
  | offset {counts : ι → Nat} (hcounts : ∀ i, (counts i : Int) = number i)
      (hsome : ∀ i, 0 < counts i) : Carries number .offset fun i => .slice (.offset (counts i))
  | nested {place : Place} {entries : ι → Element} (hentries : Carries number place entries)
      (name : String) (qualifier label : Option String) (before behind : List Element) :
      Carries number place.below fun i =>
        .bucket ⟨name, qualifier, label, before ++ entries i :: behind⟩

/-- Whether such an element asks for data does not depend on the integer. -/
theorem Element.Carries.readsData {place : Place} {entries : ι → Element}
    (hcarries : Carries number place entries) :
    ∃ reads, ∀ i, Bucket.readsData (entries i) = reads := by
  cases hcarries <;> exact ⟨_, fun _ => rfl⟩

/-- Requests that are the same but for one integer, which is written in one of the elements. -/
inductive Bucket.Carries (number : ι → Int) : Place → (ι → Bucket) → Prop
  | element {place : Place} {entries : ι → Element}
      (hentries : Element.Carries number place entries) (name : String)
      (qualifier label : Option String) (before behind : List Element) :
      Carries number (behind.foldl Place.after place) fun i =>
        ⟨name, qualifier, label, before ++ entries i :: behind⟩

end TreeQuery
