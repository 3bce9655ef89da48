import TreeQuery.Proofs.Plan.Building
import TreeQuery.Proofs.Plan.Changes
import TreeQuery.Proofs.Plan.GatheredPlaces
import TreeQuery.Proofs.Plan.Insertions

/-!
# Integers in statements

An integer of a request comes out at one place of the text of its statement, whatever the
dialect.  It is written there with its digits exactly if it is below `2^63`: larger counts wrap
around, and larger values become doubles.
-/

namespace TreeQuery.Plan

open Catalog (Lookup Memo Schema)
open Sql (Place Statement)

variable {ι : Type} {number : ι → Int} {dropped : Prop} {place : Place}

/-! ## Parts of a query -/

/-- Parts of a query that are the same but for one integer. -/
inductive SelectParts.Carries (number : ι → Int) (dropped : Prop) :
    Place → (ι → SelectParts) → Prop
  | condition (parts : SelectParts) {expressions : ι → Sql.Expr}
      (hexpressions : Sql.Expr.Carries (fun i => Place.value.literal (number i)) expressions) :
      Carries number dropped .value fun i => { parts with condition := some (expressions i) }
  | limit (parts : SelectParts) {counts : ι → Nat} (hcounts : ∀ i, (counts i : Int) = number i) :
      Carries number dropped .limit fun i => { parts with limit := some (counts i) }
  | offset (parts : SelectParts) {counts : ι → Nat} (hcounts : ∀ i, (counts i : Int) = number i) :
      Carries number dropped .offset fun i => { parts with offset := some (counts i) }
  | same {place : Place} (parts : SelectParts) (hdropped : place = .idle ∨ dropped) :
      Carries number dropped place fun _ => parts

/-- Extensions that leave an integer of the parts of a query at its place. -/
def KeepIntegers (number : ι → Int) (extensions : List (String × Extension.ReadExtension)) : Prop :=
  ∀ entry ∈ extensions, ∀ (beacon : Beacon) (dropped : Prop) (place : Place)
    (parts : ι → SelectParts), SelectParts.Carries number dropped place parts →
      UniformOutcome (SelectParts.Carries number dropped place) fun i =>
        entry.2.adjust beacon (parts i)

theorem adjustParts_uniform {extensions : List (String × Extension.ReadExtension)}
    (hkeep : KeepIntegers number extensions) (beacons : List Beacon) :
    ∀ {parts : ι → SelectParts}, SelectParts.Carries number dropped place parts →
      UniformOutcome (SelectParts.Carries number dropped place) fun i =>
        adjustParts extensions beacons (parts i) := by
  induction beacons with
  | nil => exact fun hparts => .ok hparts
  | cons beacon rest ih =>
      intro parts hparts
      simp only [adjustParts]
      split
      · exact ih hparts
      · next extension hfound =>
          obtain ⟨before, behind, rfl, -⟩ := List.lookup_eq_some_iff.mp hfound
          apply (hkeep _ (List.mem_append_right _ List.mem_cons_self) beacon _ _ _ hparts).bind
          exact fun _ hadjusted => ih hadjusted

/-! ## Rows -/

section Rows

variable {column : String} {before behind : Record}

/-- The integer of a row stands under its column, and the other cells do not depend on it. -/
theorem gap_cells (hfirst : column ∉ before.map Prod.fst) {columns : List String}
    (hnodup : columns.Nodup) (hcolumn : column ∈ columns) :
    Gap (fun i => Sql.Expr.literal (Place.value.literal (number i)))
      fun i => columns.map (cell (before ++ (column, .int (number i)) :: behind)) := by
  have hcell (i : ι) : cell (before ++ (column, .int (number i)) :: behind) column =
      .literal (Place.value.literal (number i)) := by
    have hnone : List.lookup column before = none := by
      apply List.lookup_eq_none_iff.mpr
      intro field hfield
      exact bne_iff_ne.mpr fun hsame => hfirst (hsame ▸ List.mem_map_of_mem hfield)
    rw [cell, Record.get?, List.lookup_append, hnone, Option.none_or, List.lookup_cons_self]
    rfl
  have hother {columns : List String} (hmissing : column ∉ columns) (i : ι) :
      columns.map (cell (before ++ (column, .int (number i)) :: behind)) =
        columns.map (cell (before ++ behind)) := by
    apply List.map_congr_left
    intro other hmem
    have hne : (other == column) = false := beq_false_of_ne fun hsame => hmissing (hsame ▸ hmem)
    simp [cell, Record.get?, List.lookup_append, List.lookup_cons, hne]
  obtain ⟨front, rest, rfl⟩ := List.append_of_mem hcolumn
  obtain ⟨-, hlater, hapart⟩ := List.nodup_append.mp hnodup
  have hfront : column ∉ front := fun hmem => hapart _ hmem _ List.mem_cons_self rfl
  have hrest : column ∉ rest := (List.nodup_cons.mp hlater).1
  simp only [List.map_append, List.map_cons, hcell, hother hfront, hother hrest]
  exact .intro _ _

end Rows

/-! ## Statements -/

namespace Planner

/-- Statements without the integer.  It was dropped, or it is a count and the statement is a
change. -/
inductive Omits (dropped : Prop) (place : Place) : (ι → Statement) → Prop
  | dropped (statement : Statement) (hdropped : place = .idle ∨ dropped) :
      Omits dropped place fun _ => statement
  | change (statement : Statement) (hplace : place ≠ .value) (hkind : statement.kind ≠ .select) :
      Omits dropped place fun _ => statement

/-- Statements that are the same but for the literal of the integer, or that are without it. -/
def Writes (number : ι → Int) (dropped : Prop) (place : Place) (statements : ι → Statement) :
    Prop :=
  Statement.Carries (fun i => place.literal (number i)) statements ∨ Omits dropped place statements

variable {planner : Planner} {bucket : Bucket} {path : Path} {gathered : ι → Gathered}

theorem query_limit (parts : SelectParts) (count : Nat) :
    SelectParts.query { parts with limit := some count } =
      { parts.query with page := some ⟨some count, parts.offset⟩ } := rfl

theorem query_offset (parts : SelectParts) (count : Nat) :
    SelectParts.query { parts with offset := some count } =
      { parts.query with page := some ⟨parts.limit, some count⟩ } := by
  have hpage : Sql.Page.of? parts.limit (some count) = some ⟨parts.limit, some count⟩ := by
    cases parts.limit <;> rfl
  rw [SelectParts.query, hpage]
  rfl

theorem query_writes {parts : ι → SelectParts}
    (hparts : SelectParts.Carries number dropped place parts) :
    Writes number dropped place fun i => .select (parts i).query := by
  cases hparts with
  | condition base hexpressions => exact .inl (base.query.carries_condition hexpressions)
  | @limit base counts hcounts =>
      have hliteral (i : ι) : Place.limit.literal (number i) = Sql.countLiteral (counts i) := by
        rw [hcounts i]
        rfl
      simp only [query_limit]
      apply Or.inl
      simp only [hliteral]
      exact base.query.carries_page (Sql.Page.carries_limit counts base.offset)
  | @offset base counts hcounts =>
      have hliteral (i : ι) : Place.offset.literal (number i) = Sql.countLiteral (counts i) := by
        rw [hcounts i]
        rfl
      simp only [query_offset]
      apply Or.inl
      simp only [hliteral]
      exact base.query.carries_page (Sql.Page.carries_offset base.limit counts)
  | same base hdropped => exact .inr (.dropped _ hdropped)

/-- A query carries what its own parts do, as long as rows and beacons do not. -/
theorem selection_uniform (hkeep : KeepIntegers number planner.extensions)
    {rows : List Record} {beacons : List Beacon}
    (hparts : ∀ table, SelectParts.Carries number dropped place
      fun i => planner.ownParts (gathered i) table)
    (hrows : ∀ i, (gathered i).rows = rows) (hbeacons : ∀ i, (gathered i).beacons = beacons)
    (memo : Memo) :
    Uniform (Writes number dropped place)
      (fun i => .select <$> planner.selection bucket path (gathered i)) memo := by
  have hquery (memo : Memo) :
      Uniform (fun queries => Writes number dropped place fun i => .select (queries i))
        (fun i => do return (← planner.parts path (gathered i)).query) memo := by
    simp only [parts, hbeacons, bind_assoc]
    apply Uniform.bind_same
    intro table middle _
    apply (Uniform.liftExcept (adjustParts_uniform hkeep beacons (hparts table))).bind
    exact fun _ _ hadjusted => .pure (query_writes hadjusted)
  have hselection : Uniform
      (fun queries => Writes number dropped place fun i => .select (queries i))
      (fun i => planner.selection bucket path (gathered i)) memo := by
    simp only [selection, hrows]
    split
    · exact .bind_same fun _ middle _ => hquery middle
    · exact hquery memo
  exact hselection.map fun _ hqueries => hqueries

theorem ownParts_condition (planner : Planner) (base : Gathered) {conditions : List Sql.Expr}
    {condition : Sql.Expr} (hcondition : Sql.Expr.conjunction? conditions = some condition)
    (table : Sql.TableRef) :
    planner.ownParts { base with conditions } table =
      { planner.ownParts base table with condition := some condition } := by
  rw [ownParts, Gathered.condition?, hcondition]
  rfl

/-- What is gathered without rows is carried by the query. -/
theorem select_uniform (hkeep : KeepIntegers number planner.extensions)
    (hgathered : Gathered.Carries number dropped place gathered) (memo : Memo) :
    Uniform (Writes number dropped place)
      (fun i => .select <$> planner.selection bucket path (gathered i)) memo := by
  cases hgathered with
  | @condition base _ lists hexpressions hgap hfilter =>
      obtain ⟨conditions, hconditions, hcondition⟩ := hexpressions.conjunction? hgap
      have hparts (table : Sql.TableRef) : SelectParts.Carries number dropped .value fun i =>
          planner.ownParts { base with conditions := lists i } table := by
        simp only [ownParts_condition planner base (hcondition _)]
        exact .condition (planner.ownParts base table) hconditions
      exact selection_uniform hkeep hparts (fun _ => rfl) (fun _ => rfl) memo
  | @row base records _ hrecords hgap =>
      obtain ⟨before, behind, rfl⟩ := hgap
      have hsome (i : ι) : (before ++ records i :: behind).isEmpty = false := by simp
      apply Uniform.fails (.ambiguous bucket.name .rowsWithColumns) memo
      intro i
      simp only [selection, hsome]
      rfl
  | @limit base counts hcounts =>
      have hparts (table : Sql.TableRef) : SelectParts.Carries number dropped .limit fun i =>
          planner.ownParts { base with limit := some (counts i) } table :=
        .limit (planner.ownParts base table) hcounts
      exact selection_uniform hkeep hparts (fun _ => rfl) (fun _ => rfl) memo
  | @offset base counts hcounts =>
      have hparts (table : Sql.TableRef) : SelectParts.Carries number dropped .offset fun i =>
          planner.ownParts { base with offset := some (counts i) } table :=
        .offset (planner.ownParts base table) hcounts
      exact selection_uniform hkeep hparts (fun _ => rfl) (fun _ => rfl) memo
  | same base hdropped =>
      have hparts (table : Sql.TableRef) : SelectParts.Carries number dropped place fun _ : ι =>
          planner.ownParts base table :=
        .same (planner.ownParts base table) hdropped
      exact selection_uniform hkeep hparts (fun _ => rfl) (fun _ => rfl) memo

theorem deletion_uniform {conditions : ι → Sql.Expr}
    (hconditions : Sql.Expr.Carries (fun i => Place.value.literal (number i)) conditions)
    (memo : Memo) :
    Uniform (Writes number dropped .value)
      (fun i => .delete <$> planner.deletion path (conditions i)) memo := by
  simp only [deletion, map_bind, map_pure]
  apply Uniform.bind_same
  intro table middle _
  exact .pure (.inl (Sql.Delete.carries_condition ⟨table.schema, table.table, none⟩ hconditions))

theorem update_uniform_of_condition (row : Record) {conditions : ι → Sql.Expr}
    (hconditions : Sql.Expr.Carries (fun i => Place.value.literal (number i)) conditions)
    (memo : Memo) :
    Uniform (Writes number dropped .value)
      (fun i => .update <$> planner.update path row (conditions i)) memo := by
  simp only [Planner.update, map_bind, map_pure]
  apply Uniform.bind_same
  intro table middle _
  apply Uniform.bind_same
  intro _ after _
  exact .pure (.inl (Sql.Update.carries_condition ⟨table.schema, table.table, _, none⟩ hconditions))

theorem update_uniform_of_row {records : ι → Record} (hrecords : Record.Carries number records)
    (condition : Sql.Expr) (memo : Memo) :
    Uniform (Writes number dropped .value)
      (fun i => .update <$> planner.update path (records i) condition) memo := by
  obtain ⟨column, before, behind, -, rfl⟩ := hrecords
  have hchecks (i : ι) : (before ++ (column, .int (number i)) :: behind).forM
      (fun field => planner.checkColumn path field.1) =
        (before.map Prod.fst ++ column :: behind.map Prod.fst).forM (planner.checkColumn path) := by
    have hkeys : (before ++ (column, .int (number i)) :: behind).map Prod.fst =
        before.map Prod.fst ++ column :: behind.map Prod.fst := List.map_append
    rw [← hkeys]
    exact List.forM_map.symm
  simp only [Planner.update, hchecks, map_bind, map_pure]
  apply Uniform.bind_same
  intro table middle _
  apply Uniform.bind_same
  intro _ after _
  simp only [List.map_append, List.map_cons]
  let frame : Sql.Update := ⟨table.schema, table.table, [], some condition⟩
  exact .pure (.inl (frame.carries_assignment .literal _ _ column))

theorem insertion_uniform {records : ι → Record} {rows : ι → List Record}
    (hrecords : Record.Carries number records) (hrows : Gap records rows) (memo : Memo) :
    Uniform (Writes number dropped .value)
      (fun i => .insert <$> planner.insertion path (rows i)) memo := by
  obtain ⟨column, before, behind, hfirst, rfl⟩ := hrecords
  obtain ⟨above, below, rfl⟩ := hrows
  let columns := (above.flatMap (·.map Prod.fst) ++ (before.map Prod.fst ++ column ::
    behind.map Prod.fst) ++ below.flatMap (·.map Prod.fst)).eraseDups
  have hcolumns (i : ι) :
      rowColumns (above ++ (before ++ (column, .int (number i)) :: behind) :: below) = columns := by
    simp [columns, rowColumns_eq]
  have hmem : column ∈ columns := by simp [columns, List.mem_eraseDups]
  simp only [insertion, hcolumns, map_bind, map_pure]
  apply Uniform.bind_same
  intro _ checked _
  apply Uniform.bind_same
  intro table middle _
  simp only [List.map_append, List.map_cons]
  apply Uniform.pure
  have hcells : Gap (fun i => Sql.Expr.literal (Place.value.literal (number i))) fun i =>
      columns.map (cell (before ++ (column, .int (number i)) :: behind)) :=
    gap_cells hfirst (nodup_eraseDups _) hmem
  exact .inl (Sql.Insert.carries ⟨table.schema, table.table, columns, []⟩ hcells .literal _ _)

section Changes

variable {base : Gathered} {condition : Sql.Expr}

theorem change_vacuous (hfilter : base.hasFilter = true) (hcondition : base.condition? = none) :
    planner.change bucket path base = throw (.ambiguous bucket.name .vacuousFilter) := by
  rw [change, hfilter, hcondition]
  cases base.rows <;> rfl

theorem change_insert (hrows : base.rows ≠ []) (hfilter : base.hasFilter = false) :
    planner.change bucket path base = .insert <$> planner.insertion path base.rows := by
  rw [change, hfilter]
  cases hgathered : base.rows with
  | nil => exact absurd hgathered hrows
  | cons first rest => rfl

theorem change_update {row : Record} (hrows : base.rows = [row]) (hfilter : base.hasFilter = true)
    (hcondition : base.condition? = some condition) :
    planner.change bucket path base = .update <$> planner.update path row condition := by
  rw [change, hfilter, hcondition, hrows]

/-- Several rows cannot share a filter. -/
theorem change_shared (hrows : 2 ≤ base.rows.length) (hfilter : base.hasFilter = true)
    (hcondition : base.condition? = some condition) :
    planner.change bucket path base =
      throw (.ambiguous bucket.name (.sharedFilter base.rows.length)) := by
  rw [change, hfilter, hcondition]
  rcases hgathered : base.rows with _ | ⟨first, _ | ⟨second, rest⟩⟩
  · rw [hgathered] at hrows
    exact absurd hrows (by simp)
  · rw [hgathered] at hrows
    exact absurd hrows (by simp)
  · rfl

theorem change_uniform_of_row (base : Gathered) {records : ι → Record}
    (hrecords : Record.Carries number records) (before behind : List Record) (memo : Memo) :
    Uniform (Writes number dropped .value)
      (fun i => planner.change bucket path
        { base with rows := before ++ records i :: behind }) memo := by
  by_cases hfilter : base.hasFilter = true
  · cases hcondition : base.condition? with
    | none =>
        have hchange (i : ι) : planner.change bucket path
            { base with rows := before ++ records i :: behind } =
              throw (.ambiguous bucket.name .vacuousFilter) := change_vacuous hfilter hcondition
        simp only [hchange]
        exact .throw _
    | some condition =>
        by_cases hseveral : 2 ≤ before.length + behind.length + 1
        · have hlength (i : ι) : (before ++ records i :: behind).length =
              before.length + behind.length + 1 := by
            simp [Nat.add_assoc]
          have hchange (i : ι) : planner.change bucket path
              { base with rows := before ++ records i :: behind } =
                throw (.ambiguous bucket.name
                  (.sharedFilter (before.length + behind.length + 1))) := by
            rw [← hlength i] at hseveral ⊢
            exact change_shared hseveral hfilter hcondition
          simp only [hchange]
          exact .throw _
        · obtain rfl : before = [] := List.length_eq_zero_iff.mp (by omega)
          obtain rfl : behind = [] := List.length_eq_zero_iff.mp (by omega)
          have hchange (i : ι) : planner.change bucket path
              { base with rows := [] ++ [records i] } =
                .update <$> planner.update path (records i) condition :=
            change_update rfl hfilter hcondition
          simp only [hchange]
          exact update_uniform_of_row hrecords condition memo
  · have hchange (i : ι) : planner.change bucket path
        { base with rows := before ++ records i :: behind } =
          .insert <$> planner.insertion path (before ++ records i :: behind) :=
      change_insert (by simp) (Bool.eq_false_iff.mpr hfilter)
    simp only [hchange]
    exact insertion_uniform hrecords (.intro before behind) memo

/-- A change does not depend on counts. -/
theorem change_writes (base : Gathered) (hplace : place ≠ .value) (memo : Memo) :
    Uniform (Writes number dropped place) (fun _ => planner.change bucket path base) memo := by
  apply Uniform.same
  intro statement finish hrun
  have hchange : Memo.Grows planner.schema (fun _ => True) memo finish ∧
      statement.kind ≠ .select := change_succeeds trivial hrun
  exact .inr (.change statement hplace hchange.2)

/-- A change carries what was gathered, but for counts. -/
theorem change_uniform (hgathered : Gathered.Carries number dropped place gathered) (memo : Memo) :
    Uniform (Writes number dropped place)
      (fun i => planner.change bucket path (gathered i)) memo := by
  cases hgathered with
  | @condition base _ lists hexpressions hgap hfilter =>
      obtain ⟨conditions, hconditions, hcondition⟩ := hexpressions.conjunction? hgap
      simp only [change, Gathered.condition?, hcondition, hfilter]
      rcases base.rows with _ | ⟨row, _ | ⟨second, rest⟩⟩
      · exact deletion_uniform hconditions memo
      · exact update_uniform_of_condition row hconditions memo
      · exact .throw _
  | row base hrecords hgap =>
      obtain ⟨before, behind, rfl⟩ := hgap
      exact change_uniform_of_row base hrecords before behind memo
  | @limit base counts hcounts =>
      have hplace : Place.limit ≠ .value := by simp
      have hsame (i : ι) : planner.change bucket path { base with limit := some (counts i) } =
          planner.change bucket path base := change_congr rfl rfl rfl
      simp only [hsame]
      exact change_writes base hplace memo
  | @offset base counts hcounts =>
      have hplace : Place.offset ≠ .value := by simp
      have hsame (i : ι) : planner.change bucket path { base with offset := some (counts i) } =
          planner.change bucket path base := change_congr rfl rfl rfl
      simp only [hsame]
      exact change_writes base hplace memo
  | same base hdropped => exact .same fun statement _ _ => .inr (.dropped statement hdropped)

end Changes

/-- The integer of the requests is in nested buckets that are left to statements of their own. -/
def LeavesIntegerOf (planner : Planner) (memo : Memo) (number : ι → Int) (requests : ι → Bucket) :
    Prop :=
  ∃ place children, Bucket.Carries number place children ∧
    ∀ i, Leaves planner.schema (requests i).rootPath memo (requests i).elements (children i)

/-- A statement carries what is gathered for it. -/
theorem build_uniform_of_gather (hkeep : KeepIntegers number planner.extensions)
    {requests : ι → Bucket} {name : String} {root : Path} (hname : ∀ i, (requests i).name = name)
    (hroot : ∀ i, (requests i).rootPath = root) {memo : Memo}
    (hgather : Uniform (Gathered.Carries number dropped place)
      (fun i => gather planner.schema root (requests i)) memo) :
    Uniform (Writes number dropped place) (fun i => planner.build (requests i)) memo := by
  simp only [build, hroot]
  apply hgather.bind
  intro gathered middle hgathered
  obtain ⟨columns, total, hcolumns, htotal⟩ := hgathered.asks
  -- the bucket only gives its name to failures from here on
  have hselection (i : ι) :
      planner.selection (requests i) root = planner.selection { name } root := by
    unfold selection
    rw [hname i]
  have hchange (i : ι) : planner.change (requests i) root = planner.change { name } root := by
    unfold change
    rw [hname i]
  simp only [hcolumns, htotal, hselection, hchange]
  split
  · exact select_uniform hkeep hgathered middle
  · exact change_uniform hgathered middle

/-- Where a bucket is read depends on whether its elements ask for data. -/
theorem rootPath_eq (name : String) (qualifier label : Option String) {entries : ι → Element}
    {reads : Bool} (hreads : ∀ i, Bucket.readsData (entries i) = reads)
    (before behind : List Element) :
    ∃ root, ∀ i,
      Bucket.rootPath ⟨name, qualifier, label, before ++ entries i :: behind⟩ = root := by
  simp only [Bucket.rootPath, Bucket.isProjection, Bucket.step, List.any_append, List.any_cons,
    hreads]
  exact ⟨_, fun _ => rfl⟩

/-- A statement carries what its request does. -/
theorem build_uniform (hkeep : KeepIntegers number planner.extensions) {requests : ι → Bucket}
    (hrequests : Bucket.Carries number place requests) (memo : Memo) :
    Uniform (Writes number (planner.LeavesIntegerOf memo number requests) place)
      (fun i => planner.build (requests i)) memo := by
  cases hrequests with
  | @element place entries hentries name qualifier label before behind =>
      obtain ⟨reads, hreads⟩ := hentries.readsData
      obtain ⟨root, hroot⟩ := rootPath_eq name qualifier label hreads before behind
      have hfound : EntriesUniform planner.schema number place entries := entriesUniform hentries
      have hleft (hleaves : LeavesInteger planner.schema root memo number
          fun i => before ++ entries i :: behind) :
          planner.LeavesIntegerOf memo number
            fun i => ⟨name, qualifier, label, before ++ entries i :: behind⟩ := by
        obtain ⟨inner, children, hchildren, hleaves⟩ := hleaves
        refine ⟨inner, children, hchildren, fun i => ?_⟩
        rw [hroot i]
        exact hleaves i
      have hgather := hfound.gather root name qualifier label before behind memo
      have hgathered := hgather.mono fun _ hgathered => hgathered.mono hleft
      have hname (i : ι) :
          Bucket.name ⟨name, qualifier, label, before ++ entries i :: behind⟩ = name := rfl
      exact build_uniform_of_gather hkeep hname hroot hgathered

/-! ## Digits -/

/-- The statements are of one kind, and their texts are the same but at one place, where each
shows its integer with its digits exactly if the integer is below `2^63`. -/
structure ShowIntegers (number : ι → Int) (statements : ι → Statement) : Prop where
  kind : ∃ kind, ∀ i, (statements i).kind = kind
  texts : ∀ dialect, ∃ (before behind : String) (written : ι → String), ∀ i,
    (statements i).render dialect = before ++ written i ++ behind ∧
      (written i = toString (number i) ↔ number i < 2 ^ 63)

theorem ShowIntegers.of_carries (hnumber : ∀ i, -(2 ^ 63) ≤ number i ∧ number i < 2 ^ 64)
    {statements : ι → Statement}
    (hcarries : Statement.Carries (fun i => place.literal (number i)) statements) :
    ShowIntegers number statements := by
  refine ⟨hcarries.kind, fun dialect => ?_⟩
  obtain ⟨before, behind, htext⟩ := (hcarries.tokens dialect).render dialect
  refine ⟨before, behind, fun i => (place.literal (number i)).render dialect, fun i => ?_⟩
  exact ⟨htext i, place.render_literal_iff (hnumber i).1 (hnumber i).2⟩

/-- Requests that are the same but for one integer, which fits into 64 bits, signed or not, are
planned alike.  Where they become statements, the integer stands at one place of the texts, with
its digits exactly if it is below `2^63`; the statements are without it only where it is left to
the statement of a nested bucket, or is a count that has no effect. -/
theorem build_shows_integers (hkeep : KeepIntegers number planner.extensions)
    (hnumber : ∀ i, -(2 ^ 63) ≤ number i ∧ number i < 2 ^ 64) {requests : ι → Bucket}
    (hrequests : Bucket.Carries number place requests) (memo : Memo) :
    Uniform (fun statements => ShowIntegers number statements ∨
        Omits (planner.LeavesIntegerOf memo number requests) place statements)
      (fun i => planner.build (requests i)) memo :=
  (build_uniform hkeep hrequests memo).mono fun _ hwrites =>
    hwrites.imp_left (ShowIntegers.of_carries hnumber)

/-- As many books as an integer that does not fit into a signed word, from the year of that integer
on. -/
def manyBooks : Bucket where
  name := "book"
  elements := [.item (.column "title"),
    .clause [.clause ⟨"year", .compare .ge (.int 9223372036854775808)⟩],
    .slice (.limit 9223372036854775808)]

/-- The year has become a double, and the count has become negative. -/
theorem manyBooks_changed :
    ∃ query after, Succeeds (bookPlanner.build manyBooks) {} (.select query) after ∧
      (Statement.select query).render .sqlite =
        "SELECT\n  \"book\".\"title\" AS \"title\"\nFROM \"book\"\n" ++
          "WHERE \"book\".\"year\" >= 9.223372036854776e18\nLIMIT -9223372036854775808" := by
  refine ⟨_, _, rfl, ?_⟩
  decide +kernel

end Planner

end TreeQuery.Plan
