import TreeQuery.Proofs.Plan.GatherRuns

/-!
# The columns of a statement

What gathering collects is told by the answers that are remembered afterwards: the
columns of a bucket and of every bucket joined to it, in the order of the request.
A nested bucket related otherwise adds nothing.
-/

namespace TreeQuery

/-- A bucket is another one, or nested in it at some depth. -/
inductive Bucket.Within (inner : Bucket) : Bucket → Prop
  | self : Within inner inner
  | nested {child bucket : Bucket} (hchild : .bucket child ∈ bucket.elements)
      (hwithin : Within inner child) : Within inner bucket

mutual

/-- A bucket and all those nested in it, at any depth. -/
def Bucket.levels : Bucket → List Bucket
  | ⟨name, qualifier, label, elements⟩ =>
      ⟨name, qualifier, label, elements⟩ :: levelsOfElements elements

/-- All buckets among the elements, at any depth. -/
def levelsOfElements : List Element → List Bucket
  | [] => []
  | .bucket child :: rest => child.levels ++ levelsOfElements rest
  | .item _ :: rest => levelsOfElements rest
  | .clause _ :: rest => levelsOfElements rest
  | .slice _ :: rest => levelsOfElements rest
  | .total :: rest => levelsOfElements rest
  | .beacon _ :: rest => levelsOfElements rest

end

mutual

theorem Bucket.within_of_mem_levels {inner : Bucket} :
    ∀ {bucket : Bucket}, inner ∈ bucket.levels → Bucket.Within inner bucket
  | ⟨_, _, _, _⟩, hmem => by
      rw [Bucket.levels] at hmem
      rcases List.mem_cons.mp hmem with rfl | hmem
      · exact .self
      · obtain ⟨child, hchild, hwithin⟩ := within_of_mem_levelsOfElements hmem
        exact .nested hchild hwithin

theorem within_of_mem_levelsOfElements {inner : Bucket} :
    ∀ {elements : List Element}, inner ∈ levelsOfElements elements →
      ∃ child, .bucket child ∈ elements ∧ Bucket.Within inner child
  | [], hmem => by cases hmem
  | .bucket child :: rest, hmem => by
      rw [levelsOfElements] at hmem
      rcases List.mem_append.mp hmem with hmem | hmem
      · exact ⟨child, List.mem_cons_self, Bucket.within_of_mem_levels hmem⟩
      · obtain ⟨nested, hnested, hwithin⟩ := within_of_mem_levelsOfElements hmem
        exact ⟨nested, List.mem_cons_of_mem _ hnested, hwithin⟩
  | .item _ :: rest, hmem | .clause _ :: rest, hmem | .slice _ :: rest, hmem
  | .total :: rest, hmem | .beacon _ :: rest, hmem => by
      rw [levelsOfElements] at hmem
      obtain ⟨nested, hnested, hwithin⟩ := within_of_mem_levelsOfElements hmem
      exact ⟨nested, List.mem_cons_of_mem _ hnested, hwithin⟩

end

theorem levels_subset {child : Bucket} {elements : List Element}
    (hchild : .bucket child ∈ elements) {inner : Bucket} (hmem : inner ∈ child.levels) :
    inner ∈ levelsOfElements elements := by
  induction elements with
  | nil => cases hchild
  | cons element rest ih =>
      rcases List.mem_cons.mp hchild with rfl | hlater
      · rw [levelsOfElements]
        exact List.mem_append_left _ hmem
      · cases element with
        | bucket other =>
            rw [levelsOfElements]
            exact List.mem_append_right _ (ih hlater)
        | _ =>
            rw [levelsOfElements]
            exact ih hlater

theorem Bucket.mem_levels {inner bucket : Bucket} :
    inner ∈ bucket.levels ↔ Bucket.Within inner bucket := by
  refine ⟨Bucket.within_of_mem_levels, fun hwithin => ?_⟩
  induction hwithin with
  | self =>
      obtain ⟨name, qualifier, label, elements⟩ := inner
      rw [Bucket.levels]
      exact List.mem_cons_self
  | @nested child bucket hchild hwithin ih =>
      obtain ⟨name, qualifier, label, elements⟩ := bucket
      rw [Bucket.levels]
      exact List.mem_cons_of_mem _ (levels_subset hchild ih)

namespace Catalog

/-- The steps of a bucket and of those nested in it stay within the paths that are
asked about. -/
def Descends (asked : Path → Prop) (bucket : Bucket) : Prop :=
  ∀ inner, Bucket.Within inner bucket → ∀ place, asked place → asked (place.child inner.step)

/-- The steps of all nested buckets among the elements stay within these paths. -/
def DescendAll (asked : Path → Prop) (elements : List Element) : Prop :=
  ∀ child, .bucket child ∈ elements → Descends asked child

theorem DescendAll.tail {asked : Path → Prop} {element : Element} {rest : List Element}
    (hdescend : DescendAll asked (element :: rest)) : DescendAll asked rest :=
  fun child hchild => hdescend child (List.mem_cons_of_mem _ hchild)

theorem Descends.elements {asked : Path → Prop} {bucket : Bucket}
    (hdescends : Descends asked bucket) : DescendAll asked bucket.elements :=
  fun _ hchild inner hwithin => hdescends inner (.nested hchild hwithin)

/-- However the memory grows, the links between paths that are asked about equate
columns of such paths. -/
def Memo.Closed (schema : Schema) (asked : Path → Prop) (memo : Memo) : Prop :=
  ∀ middle, Memo.Grows schema asked memo middle → ∀ source target link, asked source →
    asked target → schema.linkAnswer? middle source target = some link →
      asked link.source.path ∧ asked link.target.path

theorem Memo.Closed.grows {schema : Schema} {asked : Path → Prop} {memo after : Memo}
    (hclosed : Memo.Closed schema asked memo) (hgrows : Memo.Grows schema asked memo after) :
    Memo.Closed schema asked after :=
  fun _ hlater => hclosed _ (hgrows.trans hlater)

end Catalog

namespace Plan

open Catalog (DescendAll Descends Link Memo ResolvedColumn Schema)

/-- The columns that elements at a place ask for, by remembered answers. -/
inductive Gathers (memo : Memo) : Path → List Element → List ResolvedColumn → Prop
  | nil {place : Path} : Gathers memo place [] []
  | column {place : Path} {name : String} {column : ResolvedColumn} {rest : List Element}
      {columns : List ResolvedColumn} (hcolumn : memo.KnowsColumn ⟨name, place⟩ column)
      (hrest : Gathers memo place rest columns) :
      Gathers memo place (.item (.column name) :: rest) (column :: columns)
  | joined {place : Path} {child : Bucket} {link : Link} {rest : List Element}
      {below columns : List ResolvedColumn}
      (hlink : memo.KnowsLink place (place.child child.step) link)
      (hjoined : link.isDeferred = false)
      (hchild : Gathers memo (place.child child.step) child.elements below)
      (hrest : Gathers memo place rest columns) :
      Gathers memo place (.bucket child :: rest) (below ++ columns)
  | deferred {place : Path} {child : Bucket} {link : Link} {rest : List Element}
      {columns : List ResolvedColumn}
      (hlink : memo.KnowsLink place (place.child child.step) link)
      (hdeferred : link.isDeferred = true) (hrest : Gathers memo place rest columns) :
      Gathers memo place (.bucket child :: rest) columns
  | other {place : Path} {element : Element} {rest : List Element}
      {columns : List ResolvedColumn} (hbucket : element.bucket? = none)
      (hcolumn : element.column? = none) (hrest : Gathers memo place rest columns) :
      Gathers memo place (element :: rest) columns

variable {schema : Schema} {asked : Path → Prop} {memo after : Memo}

theorem Gathers.grows {place : Path} {elements : List Element} {columns : List ResolvedColumn}
    (hgathers : Gathers memo place elements columns)
    (hgrows : Memo.Grows schema asked memo after) : Gathers after place elements columns := by
  induction hgathers with
  | nil => exact .nil
  | column hcolumn _ ih => exact .column (hgrows.knowsColumn hcolumn) ih
  | joined hlink hjoined _ _ ihchild ihrest =>
      exact .joined (hgrows.knowsLink hlink) hjoined ihchild ihrest
  | deferred hlink hdeferred _ ih => exact .deferred (hgrows.knowsLink hlink) hdeferred ih
  | other hbucket hcolumn _ ih => exact .other hbucket hcolumn ih

/-! ## One step of gathering -/

/-- A nested bucket is joined exactly when its link is not left to a statement of its
own. -/
theorem joinOf?_succeeds {path childPath : Path} {join : Option KnownJoin}
    (hclosed : Memo.Closed schema asked memo) (hpath : asked path) (hchild : asked childPath)
    (hrun : Succeeds (joinOf? schema path childPath) memo join after) :
    Memo.Grows schema asked memo after ∧
      ∃ link, after.KnowsLink path childPath link ∧ join.isSome = !link.isDeferred := by
  cases joinOf?_run hrun with
  | joined hlink hcolumn hother htable =>
      obtain ⟨hanswer, hgrows, hknows⟩ := Schema.link_succeeds hpath hchild hlink
      obtain ⟨hsource, htarget⟩ := hclosed _ .refl _ _ _ hpath hchild hanswer
      have hlater := (((Schema.column_succeeds hsource hcolumn).2.1).trans
        (Schema.column_succeeds htarget hother).2.1).trans (Schema.table_succeeds hchild htable).2
      exact ⟨hgrows.trans hlater, _, hlater.knowsLink hknows, rfl⟩
  | @deferred link _ hlink hdeferred =>
      obtain ⟨-, hgrows, hknows⟩ := Schema.link_succeeds hpath hchild hlink
      refine ⟨hgrows, link, hknows, ?_⟩
      rw [hdeferred]
      rfl

/-- Clauses add neither columns nor a total. -/
theorem gatherClauses_succeeds {path : Path} {gathered result : Gathered} {clauses : ClauseSet}
    (hpath : asked path)
    (hrun : Succeeds (gatherClauses schema path gathered clauses) memo result after) :
    Memo.Grows schema asked memo after ∧ result.columns = gathered.columns ∧
      result.total = gathered.total := by
  obtain ⟨condition, order, middle, hcondition, horder, rfl⟩ := gatherClauses_run hrun
  have hgrows : Memo.Grows schema (· = path) memo after :=
    (Predicate.ofExpression_grows hcondition).trans (SortKeys.ofExpression_grows horder)
  have hasked : ∀ other, other = path → asked other := by
    rintro other rfl
    exact hpath
  exact ⟨hgrows.mono hasked, rfl, rfl⟩

/-! ## All of gathering -/

/-- Going through elements at a place adds their columns to what was gathered before,
and their total when the place is the root. -/
structure Collects (schema : Schema) (asked : Path → Prop) (memo after : Memo) (place : Path)
    (elements : List Element) (gathered result : Gathered) : Prop where
  grows : Memo.Grows schema asked memo after
  columns : ∃ columns, Gathers after place elements columns ∧
    result.columns = gathered.columns ++ columns.map ResolvedColumn.item
  total : result.total =
    (gathered.total || elements.any ElementOf.isTotal && decide (place.length ≤ 1))

/-- An element that is no column, no nested bucket and no total adds nothing. -/
theorem Collects.other {place : Path} {element : Element} {rest : List Element}
    {gathered next result : Gathered}
    (hrest : Collects schema asked memo after place rest next result)
    (hbucket : element.bucket? = none) (hcolumn : element.column? = none)
    (htotal : element.isTotal = false) (hcolumns : next.columns = gathered.columns)
    (hsame : next.total = gathered.total) :
    Collects schema asked memo after place (element :: rest) gathered result := by
  obtain ⟨columns, hgathers, hresult⟩ := hrest.columns
  refine ⟨hrest.grows, ⟨columns, .other hbucket hcolumn hgathers, ?_⟩, ?_⟩
  · rw [hresult, hcolumns]
  · rw [hrest.total, hsame, List.any_cons, htotal, Bool.false_or]

/-- By induction on the steps of gathering: every step adds what its own element asks for. -/
theorem GatherRun.collects {place : Path} {elements : List Element} {gathered result : Gathered}
    {clauses final : ClauseSet}
    (hrun : GatherRun schema place elements gathered clauses memo result final after)
    (hclosed : Memo.Closed schema asked memo) (hplace : asked place)
    (hdescends : DescendAll asked elements) :
    Collects schema asked memo after place elements gathered result := by
  induction hrun with
  | nil => exact ⟨.refl, ⟨[], .nil, by simp⟩, by simp⟩
  | @column place name rest gathered result clauses final memo middle after resolved hcolumn _
      ih =>
      have hasked : asked (Address.mk name place).path := hplace
      obtain ⟨-, hgrows, hknows⟩ := Schema.column_succeeds hasked hcolumn
      have hcollects := ih (hclosed.grows hgrows) hplace hdescends.tail
      obtain ⟨columns, hgathers, hresult⟩ := hcollects.columns
      refine ⟨hgrows.trans hcollects.grows,
        ⟨resolved :: columns, .column (hcollects.grows.knowsColumn hknows) hgathers, ?_⟩,
        hcollects.total⟩
      rw [hresult, List.map_cons, List.append_assoc, List.singleton_append]
  | @deferred place nested rest gathered result clauses final memo middle after hjoin _ ih =>
      have hnested : asked (place.child nested.step) :=
        hdescends nested List.mem_cons_self nested .self place hplace
      obtain ⟨hgrows, link, hknows, hdeferred⟩ := joinOf?_succeeds hclosed hplace hnested hjoin
      have hcollects := ih (hclosed.grows hgrows) hplace hdescends.tail
      obtain ⟨columns, hgathers, hresult⟩ := hcollects.columns
      exact ⟨hgrows.trans hcollects.grows, ⟨columns, .deferred
        (hcollects.grows.knowsLink hknows) (by simpa using hdeferred) hgathers, hresult⟩,
        hcollects.total⟩
  | @joined place nested rest gathered inner below result clauses innerClauses final memo first
      second third after join hjoin _ hclauses _ ihnested ihrest =>
      have hdescend : Descends asked nested := hdescends nested List.mem_cons_self
      have hnested : asked (place.child nested.step) := hdescend nested .self place hplace
      obtain ⟨hgrows, link, hknows, hjoined⟩ := joinOf?_succeeds hclosed hplace hnested hjoin
      have hinner := ihnested (hclosed.grows hgrows) hnested hdescend.elements
      obtain ⟨hadded, hbelow, -⟩ := gatherClauses_succeeds hnested hclauses
      have hcollects := ihrest (((hclosed.grows hgrows).grows hinner.grows).grows hadded) hplace
        hdescends.tail
      obtain ⟨innerColumns, hinnerGathers, hinnerResult⟩ := hinner.columns
      obtain ⟨columns, hgathers, hresult⟩ := hcollects.columns
      have hbehind := hadded.trans hcollects.grows
      have hlater := hinner.grows.trans hbehind
      refine ⟨hgrows.trans hlater, ⟨innerColumns ++ columns, .joined (hlater.knowsLink hknows)
        (by simpa using hjoined) (hinnerGathers.grows hbehind) hgathers, ?_⟩, ?_⟩
      · rw [hresult, Gathered.absorb_eq, Gathered.addJoin_eq, hbelow, hinnerResult,
          List.map_append, List.append_assoc]
        rfl
      · rw [hcollects.total, Gathered.absorb_eq, Gathered.addJoin_eq]
        rfl
  | @total place rest gathered result clauses final memo after _ ih =>
      have hcollects := ih hclosed hplace hdescends.tail
      obtain ⟨columns, hgathers, hresult⟩ := hcollects.columns
      refine ⟨hcollects.grows, ⟨columns, .other rfl rfl hgathers, hresult⟩, ?_⟩
      rw [hcollects.total, List.any_cons]
      cases gathered.total <;> cases decide (place.length ≤ 1) <;> simp [ElementOf.isTotal]
  | row _ _ ih | clause _ _ ih | limit _ ih | offset _ ih | beacon _ ih =>
      exact (ih hclosed hplace hdescends.tail).other rfl rfl rfl rfl rfl

/-- Gathering a bucket collects its columns and those joined to it, and its total when
it stands at the root. -/
theorem gather_succeeds {bucket : Bucket} {place : Path} {gathered : Gathered}
    (hclosed : Memo.Closed schema asked memo) (hplace : asked place)
    (hdescends : DescendAll asked bucket.elements)
    (hrun : Succeeds (gather schema place bucket) memo gathered after) :
    Collects schema asked memo after place bucket.elements {} gathered := by
  obtain ⟨inner, clauses, middle, helements, hclauses⟩ := gather_run hrun
  have hcollects := helements.collects hclosed hplace hdescends
  obtain ⟨columns, hgathers, hcolumns⟩ := hcollects.columns
  obtain ⟨hlater, hsame, hsameTotal⟩ := gatherClauses_succeeds hplace hclauses
  exact ⟨hcollects.grows.trans hlater, ⟨columns, hgathers.grows hlater, hsame.trans hcolumns⟩,
    hsameTotal.trans hcollects.total⟩

end Plan

end TreeQuery
