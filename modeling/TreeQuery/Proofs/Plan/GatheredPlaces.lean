import TreeQuery.Proofs.Plan.KeyBlind
import TreeQuery.Proofs.Plan.Places
import TreeQuery.Proofs.Plan.Statements

/-!
# Gathering one integer

Buckets that are the same but for one integer are gathered alike: either it fails in the same
way for all of them, or what is gathered is the same but for the literal of the integer in a
condition, for a value of a row or for a count.  It is the same altogether where the integer is in
nested buckets that are left to statements of their own, or is a count that has no effect.
-/

namespace TreeQuery.Plan

open Catalog (Memo Schema)
open Sql (Place)

variable {ι : Type} {number : ι → Int} {schema : Schema} {path : Path}

/-! ## What is gathered -/

namespace Gathered

theorem absorb_withRows (gathered below : Gathered) (rows : List Record) :
    absorb { gathered with rows } below =
      { gathered.absorb below with rows := rows ++ below.rows } := by
  rw [absorb_eq, absorb_eq gathered]

theorem absorb_withLimit (gathered below : Gathered) (limit : Option Nat) :
    absorb { gathered with limit } below = { gathered.absorb below with limit } := by
  rw [absorb_eq, absorb_eq gathered]

theorem absorb_withOffset (gathered below : Gathered) (offset : Option Nat) :
    absorb { gathered with offset } below = { gathered.absorb below with offset } := by
  rw [absorb_eq, absorb_eq gathered]

theorem absorb_belowConditions (gathered below : Gathered) (conditions : List Sql.Expr) :
    gathered.absorb { below with conditions } =
      { gathered.absorb below with conditions := gathered.conditions ++ conditions } := by
  rw [absorb_eq, absorb_eq gathered below]

theorem absorb_belowRows (gathered below : Gathered) (rows : List Record) :
    gathered.absorb { below with rows } =
      { gathered.absorb below with rows := gathered.rows ++ rows } := by
  rw [absorb_eq, absorb_eq gathered below]

theorem absorb_row (gathered : Gathered) (row : Record) :
    { gathered with rows := gathered.rows ++ [row] } = gathered.absorb { rows := [row] } := by
  simp [absorb_eq]

theorem absorb_join (gathered : Gathered) (known : KnownJoin) :
    gathered.addJoin known = gathered.absorb { joins := [known] } := by
  simp [addJoin_eq, absorb_eq]

theorem absorb_clauses (gathered : Gathered) (hasFilter : Bool) (conditions : List Sql.Expr)
    (order : List Sql.SortKey) :
    { gathered with
      hasFilter := gathered.hasFilter || hasFilter
      conditions := gathered.conditions ++ conditions
      order := gathered.order ++ order } = gathered.absorb { hasFilter, conditions, order } := by
  simp [absorb_eq]

theorem hasFilter_absorb (gathered below : Gathered) :
    (gathered.absorb below).hasFilter = (gathered.hasFilter || below.hasFilter) := by
  rw [absorb_eq]

/-- An edit of fields that hold neither values nor counts. -/
structure Frames (edit : Gathered → Gathered) : Prop where
  conditions : ∀ gathered conditions,
    edit { gathered with conditions } = { edit gathered with conditions }
  rows : ∀ gathered rows, edit { gathered with rows } = { edit gathered with rows }
  limit : ∀ gathered limit, edit { gathered with limit } = { edit gathered with limit }
  offset : ∀ gathered offset, edit { gathered with offset } = { edit gathered with offset }
  hasFilter : ∀ gathered, (edit gathered).hasFilter = gathered.hasFilter

theorem frames_columns (columns : List Sql.SelectItem) :
    Frames fun gathered => { gathered with columns := gathered.columns ++ columns } :=
  ⟨fun _ _ => rfl, fun _ _ => rfl, fun _ _ => rfl, fun _ _ => rfl, fun _ => rfl⟩

theorem frames_total (total : Bool) :
    Frames fun gathered => { gathered with total := gathered.total || total } :=
  ⟨fun _ _ => rfl, fun _ _ => rfl, fun _ _ => rfl, fun _ _ => rfl, fun _ => rfl⟩

theorem frames_beacons (beacons : List Beacon) :
    Frames fun gathered => { gathered with beacons := gathered.beacons ++ beacons } :=
  ⟨fun _ _ => rfl, fun _ _ => rfl, fun _ _ => rfl, fun _ _ => rfl, fun _ => rfl⟩

/-- What is gathered is the same but for one integer, which is in a condition, in a row or a
count, or has been dropped. -/
inductive Carries (number : ι → Int) (dropped : Prop) : Place → (ι → Gathered) → Prop
  | condition (gathered : Gathered) {expressions : ι → Sql.Expr} {conditions : ι → List Sql.Expr}
      (hexpressions : Sql.Expr.Carries (fun i => Place.value.literal (number i)) expressions)
      (hconditions : Gap expressions conditions) (hfilter : gathered.hasFilter = true) :
      Carries number dropped .value fun i => { gathered with conditions := conditions i }
  | row (gathered : Gathered) {records : ι → Record} {rows : ι → List Record}
      (hrecords : Record.Carries number records) (hrows : Gap records rows) :
      Carries number dropped .value fun i => { gathered with rows := rows i }
  | limit (gathered : Gathered) {counts : ι → Nat} (hcounts : ∀ i, (counts i : Int) = number i) :
      Carries number dropped .limit fun i => { gathered with limit := some (counts i) }
  | offset (gathered : Gathered) {counts : ι → Nat} (hcounts : ∀ i, (counts i : Int) = number i) :
      Carries number dropped .offset fun i => { gathered with offset := some (counts i) }
  | same {place : Place} (gathered : Gathered) (hdropped : place = .idle ∨ dropped) :
      Carries number dropped place fun _ => gathered

namespace Carries

variable {dropped : Prop} {place : Place} {gathered : ι → Gathered}

theorem mono {other : Prop} (hcarries : Carries number dropped place gathered)
    (hother : dropped → other) : Carries number other place gathered := by
  cases hcarries with
  | condition base hexpressions hconditions hfilter =>
      exact .condition base hexpressions hconditions hfilter
  | row base hrecords hrows => exact .row base hrecords hrows
  | limit base hcounts => exact .limit base hcounts
  | offset base hcounts => exact .offset base hcounts
  | same base hdropped => exact .same base (hdropped.imp_right hother)

/-- The same may be added to all of them. -/
theorem absorb (hcarries : Carries number dropped place gathered) (below : Gathered) :
    Carries number dropped place fun i => (gathered i).absorb below := by
  cases hcarries with
  | condition base hexpressions hconditions hfilter =>
      simp only [absorb_withConditions]
      refine .condition (base.absorb below) hexpressions (hconditions.append_right _) ?_
      rw [hasFilter_absorb, hfilter, Bool.true_or]
  | row base hrecords hrows =>
      simp only [absorb_withRows]
      exact .row (base.absorb below) hrecords (hrows.append_right _)
  | limit base hcounts =>
      simp only [absorb_withLimit]
      exact .limit (base.absorb below) hcounts
  | offset base hcounts =>
      simp only [absorb_withOffset]
      exact .offset (base.absorb below) hcounts
  | same base hdropped => exact .same (base.absorb below) hdropped

/-- They may all be added to the same.  A count from below is dropped. -/
theorem absorbed (hcarries : Carries number dropped place gathered) (above : Gathered) :
    Carries number dropped place.below fun i => above.absorb (gathered i) := by
  cases hcarries with
  | condition base hexpressions hconditions hfilter =>
      simp only [absorb_belowConditions]
      refine .condition (above.absorb base) hexpressions (hconditions.append_left _) ?_
      rw [hasFilter_absorb, hfilter, Bool.or_true]
  | row base hrecords hrows =>
      simp only [absorb_belowRows]
      exact .row (above.absorb base) hrecords (hrows.append_left _)
  | limit base hcounts => exact .same (above.absorb base) (.inl rfl)
  | offset base hcounts => exact .same (above.absorb base) (.inl rfl)
  | same base hdropped =>
      refine .same (above.absorb base) (hdropped.imp_left ?_)
      rintro rfl
      rfl

/-- The data that is asked for does not depend on the integer. -/
theorem asks (hcarries : Carries number dropped place gathered) :
    ∃ columns total, (∀ i, (gathered i).columns = columns) ∧ ∀ i, (gathered i).total = total := by
  cases hcarries <;> exact ⟨_, _, fun _ => rfl, fun _ => rfl⟩

/-- Fields that hold no value and no count may change for all alike. -/
theorem frame {edit : Gathered → Gathered} (hframes : Frames edit)
    (hcarries : Carries number dropped place gathered) :
    Carries number dropped place fun i => edit (gathered i) := by
  cases hcarries with
  | @condition base _ conditions hexpressions hgap hfilter =>
      rw [funext fun i => hframes.conditions base (conditions i)]
      exact .condition (edit base) hexpressions hgap ((hframes.hasFilter base).trans hfilter)
  | @row base _ rows hrecords hgap =>
      rw [funext fun i => hframes.rows base (rows i)]
      exact .row (edit base) hrecords hgap
  | @limit base counts hcounts =>
      rw [funext fun i => hframes.limit base (some (counts i))]
      exact .limit (edit base) hcounts
  | @offset base counts hcounts =>
      rw [funext fun i => hframes.offset base (some (counts i))]
      exact .offset (edit base) hcounts
  | same base hdropped => exact .same (edit base) hdropped

/-- A further count takes the place of an earlier one of its kind. -/
theorem withLimit (hcarries : Carries number dropped place gathered) (count : Nat) :
    Carries number dropped (place.after (.slice (.limit count))) fun i =>
      { gathered i with limit := positive? count } := by
  cases hcarries with
  | condition base hexpressions hconditions hfilter =>
      exact .condition { base with limit := positive? count } hexpressions hconditions hfilter
  | row base hrecords hrows =>
      exact .row { base with limit := positive? count } hrecords hrows
  | limit base hcounts => exact .same { base with limit := positive? count } (.inl rfl)
  | offset base hcounts => exact .offset { base with limit := positive? count } hcounts
  | same base hdropped =>
      refine .same _ (hdropped.imp_left ?_)
      rintro rfl
      rfl

theorem withOffset (hcarries : Carries number dropped place gathered) (count : Nat) :
    Carries number dropped (place.after (.slice (.offset count))) fun i =>
      { gathered i with offset := positive? count } := by
  cases hcarries with
  | condition base hexpressions hconditions hfilter =>
      exact .condition { base with offset := positive? count } hexpressions hconditions hfilter
  | row base hrecords hrows =>
      exact .row { base with offset := positive? count } hrecords hrows
  | limit base hcounts => exact .limit { base with offset := positive? count } hcounts
  | offset base hcounts => exact .same { base with offset := positive? count } (.inl rfl)
  | same base hdropped =>
      refine .same _ (hdropped.imp_left ?_)
      rintro rfl
      rfl

end Carries

end Gathered

/-! ## Elements -/

/-- From a memory, gathering the elements at a path leaves a nested bucket to a statement of its
own. -/
inductive Leaves (schema : Schema) : Path → Memo → List Element → Bucket → Prop
  | own {path : Path} {name : String} {before behind : List Element} {child : Bucket}
      {found : Gathered × ClauseSet} {memo middle after : Memo}
      (hbefore : Succeeds (gatherElements schema path name {} {} before) memo found middle)
      (hjoin : Succeeds (joinOf? schema path (path.child child.step)) middle none after) :
      Leaves schema path memo (before ++ .bucket child :: behind) child
  | within {path : Path} {name : String} {before behind : List Element} {child inner : Bucket}
      {found : Gathered × ClauseSet} {known : KnownJoin} {memo middle after : Memo}
      (hbefore : Succeeds (gatherElements schema path name {} {} before) memo found middle)
      (hjoin : Succeeds (joinOf? schema path (path.child child.step)) middle (some known) after)
      (hinner : Leaves schema (path.child child.step) after child.elements inner) :
      Leaves schema path memo (before ++ .bucket child :: behind) inner

/-- The integer is in nested buckets that are left to statements of their own. -/
def LeavesInteger (schema : Schema) (path : Path) (memo : Memo) (number : ι → Int)
    (elements : ι → List Element) : Prop :=
  ∃ place children, Bucket.Carries number place children ∧
    ∀ i, Leaves schema path memo (elements i) (children i)

section Leaving

variable {step : Step} {buckets : ι → Bucket} {before : List Element} {name : String}
  {found : Gathered × ClauseSet} {memo middle after : Memo}

theorem LeavesInteger.own {place : Place} (hbuckets : Bucket.Carries number place buckets)
    (hstep : ∀ i, (buckets i).step = step)
    (hbefore : Succeeds (gatherElements schema path name {} {} before) memo found middle)
    (hjoin : Succeeds (joinOf? schema path (path.child step)) middle none after)
    (behind : List Element) :
    LeavesInteger schema path memo number fun i => before ++ .bucket (buckets i) :: behind :=
  ⟨place, buckets, hbuckets, fun i => .own hbefore (hstep i ▸ hjoin)⟩

theorem LeavesInteger.within {known : KnownJoin} (hstep : ∀ i, (buckets i).step = step)
    (hbefore : Succeeds (gatherElements schema path name {} {} before) memo found middle)
    (hjoin : Succeeds (joinOf? schema path (path.child step)) middle (some known) after)
    (behind : List Element)
    (hinner : LeavesInteger schema (path.child step) after number fun i => (buckets i).elements) :
    LeavesInteger schema path memo number fun i => before ++ .bucket (buckets i) :: behind := by
  obtain ⟨place, children, hchildren, hleaves⟩ := hinner
  refine ⟨place, children, hchildren, fun i => ?_⟩
  have hchild := hleaves i
  rw [← hstep i] at hjoin hchild
  exact .within hbefore hjoin hchild

end Leaving

/-- What is found in the elements of a bucket is the same but for one integer. -/
inductive FoundCarries (number : ι → Int) (dropped : Prop) :
    Place → (ι → Gathered × ClauseSet) → Prop
  | gathered {place : Place} {gathered : ι → Gathered}
      (hgathered : Gathered.Carries number dropped place gathered) (clauses : ClauseSet) :
      FoundCarries number dropped place fun i => (gathered i, clauses)
  | clauses (gathered : Gathered) {clauses : ι → ClauseSet}
      (hclauses : ClausesCarry number clauses) :
      FoundCarries number dropped .value fun i => (gathered, clauses i)

section Elements

variable {dropped : Prop} {place : Place} {found : ι → Gathered × ClauseSet} {name : String}

/-- What is gathered changes with a further element. -/
theorem FoundCarries.after (hfound : FoundCarries number dropped place found) (element : Element)
    (edit : Gathered → Gathered)
    (hedit : ∀ {gathered : ι → Gathered}, Gathered.Carries number dropped place gathered →
      Gathered.Carries number dropped (place.after element) fun i => edit (gathered i)) :
    FoundCarries number dropped (place.after element) fun i =>
      (edit (found i).1, (found i).2) := by
  cases hfound with
  | gathered hgathered clauses => exact .gathered (hedit hgathered) clauses
  | clauses gathered hclauses => exact .clauses (edit gathered) hclauses

theorem Place.after_of_no_slice (place : Place) {element : Element}
    (hslice : element.isSlice = false) : place.after element = place := by
  cases place <;> cases element <;> first | rfl | cases hslice

/-- What is gathered changes with a further element that is no count. -/
theorem FoundCarries.grow (hfound : FoundCarries number dropped place found) {element : Element}
    (hslice : element.isSlice = false) (edit : Gathered → Gathered)
    (hedit : ∀ {gathered : ι → Gathered}, Gathered.Carries number dropped place gathered →
      Gathered.Carries number dropped place fun i => edit (gathered i)) :
    FoundCarries number dropped (place.after element) fun i =>
      (edit (found i).1, (found i).2) := by
  apply hfound.after element edit
  rw [Place.after_of_no_slice place hslice]
  exact hedit

/-- What was found before may carry an integer past an element. -/
theorem gatherElement_uniform (element : Element) (hfound : FoundCarries number dropped place found)
    (memo : Memo) :
    Uniform (FoundCarries number dropped (place.after element))
      (fun i => gatherElement schema path name (found i).1 (found i).2 element) memo := by
  cases element with
  | item item =>
      cases item with
      | column column =>
          simp only [gatherElement]
          apply Uniform.bind_same
          intro resolved middle _
          exact .pure (hfound.grow rfl _ (.frame (Gathered.frames_columns [resolved.item])))
      | row row =>
          have hgrown : FoundCarries number dropped (place.after (.item (.row row))) _ :=
            hfound.grow rfl (·.absorb { rows := [row] }) (·.absorb _)
          simp only [gatherElement, Gathered.absorb_row]
          split
          · exact .bind_same fun _ _ _ => .pure hgrown
          · exact .pure hgrown
  | bucket nested =>
      simp only [gatherElement]
      apply Uniform.bind_same
      intro join middle _
      cases join with
      | none => exact .pure (hfound.grow rfl id id)
      | some known =>
          simp only [Gathered.absorb_join]
          apply Uniform.bind_same
          intro below after _
          have hgrown : FoundCarries number dropped (place.after (.bucket nested)) _ :=
            hfound.grow rfl (fun gathered => (gathered.absorb { joins := [known] }).absorb below)
              fun hcarries => (hcarries.absorb _).absorb below
          exact .pure hgrown
  | clause expression =>
      cases hfound with
      | gathered hgathered clauses =>
          simp only [gatherElement]
          apply Uniform.bind_same
          intro pushed middle _
          exact .pure ((FoundCarries.gathered hgathered pushed).grow rfl id id)
      | clauses gathered hclauses =>
          simp only [gatherElement]
          apply (Uniform.liftExcept (hclauses.push_uniform expression)).bind
          exact fun pushed middle hpushed => .pure (.clauses gathered hpushed)
  | slice slice =>
      cases slice with
      | limit count =>
          simp only [gatherElement]
          exact .pure (hfound.after _ (fun gathered => { gathered with limit := positive? count })
            (·.withLimit count))
      | offset count =>
          simp only [gatherElement]
          exact .pure (hfound.after _ (fun gathered => { gathered with offset := positive? count })
            (·.withOffset count))
  | total =>
      simp only [gatherElement]
      exact .pure (hfound.grow rfl _ (.frame (Gathered.frames_total _)))
  | beacon beacon =>
      simp only [gatherElement]
      exact .pure (hfound.grow rfl _ (.frame (Gathered.frames_beacons [beacon])))

/-- What was found before may carry an integer past further elements. -/
theorem gatherElements_uniform_of_found (elements : List Element)
    (hfound : FoundCarries number dropped place found) (memo : Memo) :
    Uniform (FoundCarries number dropped (elements.foldl Place.after place))
      (fun i => gatherElements schema path name (found i).1 (found i).2 elements) memo := by
  induction elements generalizing place found memo with
  | nil =>
      simp only [gatherElements]
      exact .pure hfound
  | cons element rest ih =>
      simp only [gatherElements_cons, List.foldl_cons]
      apply (gatherElement_uniform element hfound memo).bind
      exact fun next middle hnext => ih hnext middle

/-- A bucket has gathered what its elements carry once its clauses are compiled. -/
theorem gatherClauses_uniform (hfound : FoundCarries number dropped place found) (memo : Memo) :
    Uniform (Gathered.Carries number dropped place)
      (fun i => gatherClauses schema path (found i).1 (found i).2) memo := by
  cases hfound with
  | gathered hgathered clauses =>
      simp only [gatherClauses]
      apply Uniform.bind_same
      intro condition middle _
      apply Uniform.bind_same
      intro order after _
      simp only [Gathered.absorb_clauses]
      exact .pure (hgathered.absorb _)
  | clauses gathered hclauses =>
      obtain ⟨base, filters, hfilters, rfl⟩ := hclauses
      simp only [gatherClauses]
      apply (Predicate.ofExpression_uniform hfilters memo).bind
      rintro _ middle ⟨expressions, hexpressions, rfl⟩
      apply Uniform.bind_same
      intro order after _
      have hfilter (i : ι) : ClauseSet.hasFilter { base with filter := filters i } = true := by
        simp [ClauseSet.hasFilter, hfilters.isEmpty i]
      simp only [hfilter, Bool.or_true, Option.toList_some]
      exact .pure (.condition
        { gathered with hasFilter := true, order := gathered.order ++ order }
        hexpressions (.intro gathered.conditions []) rfl)

theorem gatherElements_append (before behind : List Element) (gathered : Gathered)
    (clauses : ClauseSet) :
    gatherElements schema path name gathered clauses (before ++ behind) =
      gatherElements schema path name gathered clauses before >>= fun found =>
        gatherElements schema path name found.1 found.2 behind := by
  induction before generalizing gathered clauses with
  | nil => exact (pure_bind _ _).symm
  | cons element rest ih => simp only [List.cons_append, gatherElements_cons, ih, bind_assoc]

theorem positive?_of_pos {count : Nat} (hpositive : 0 < count) :
    positive? count = some count :=
  if_pos hpositive

/-- What entries carry is found in them alike, whatever comes before and behind them. -/
def EntriesUniform (schema : Schema) (number : ι → Int) (place : Place) (entries : ι → Element) :
    Prop :=
  ∀ {path : Path} {name : String} {before : List Element} {found : Gathered × ClauseSet}
    {memo middle : Memo},
    Succeeds (gatherElements schema path name {} {} before) memo found middle →
      ∀ behind, Uniform (FoundCarries number
          (LeavesInteger schema path memo number fun i => before ++ entries i :: behind)
          (behind.foldl Place.after place))
        (fun i => gatherElements schema path name found.1 found.2 (entries i :: behind)) middle

/-- A bucket gathers what it finds in an entry and behind it. -/
theorem gather_uniform {entries : ι → Element} (path : Path) (name : String)
    (qualifier label : Option String) (before behind : List Element) (memo : Memo)
    (hentries : ∀ found middle,
      Succeeds (gatherElements schema path name {} {} before) memo found middle →
        Uniform (FoundCarries number dropped place)
          (fun i => gatherElements schema path name found.1 found.2 (entries i :: behind)) middle) :
    Uniform (Gathered.Carries number dropped place)
      (fun i => gather schema path ⟨name, qualifier, label, before ++ entries i :: behind⟩)
      memo := by
  simp only [gather, gatherElements_append, bind_assoc]
  apply Uniform.bind_same
  intro found middle hbefore
  apply (hentries found middle hbefore).bind
  exact fun _ after hfound => gatherClauses_uniform hfound after

/-- What a bucket carries is gathered in all of them alike, unless it is left to statements of its
own. -/
theorem EntriesUniform.gather {entries : ι → Element}
    (hentries : EntriesUniform schema number place entries) (path : Path) (name : String)
    (qualifier label : Option String) (before behind : List Element) (memo : Memo) :
    Uniform (Gathered.Carries number
        (LeavesInteger schema path memo number fun i => before ++ entries i :: behind)
        (behind.foldl Place.after place))
      (fun i => Plan.gather schema path ⟨name, qualifier, label, before ++ entries i :: behind⟩)
      memo :=
  gather_uniform path name qualifier label before behind memo fun _ _ hbefore =>
    hentries hbefore behind

/-- What an entry carries is found behind it once it is found in the entry itself. -/
theorem entriesUniform_of_step {entries : ι → Element}
    (hstep : ∀ {path : Path} {name : String} {before : List Element}
      {found : Gathered × ClauseSet} {memo middle : Memo},
      Succeeds (gatherElements schema path name {} {} before) memo found middle →
        ∀ behind, Uniform (FoundCarries number
            (LeavesInteger schema path memo number fun i => before ++ entries i :: behind) place)
          (fun i => gatherElement schema path name found.1 found.2 (entries i)) middle) :
    EntriesUniform schema number place entries := by
  intro path name before found memo middle hbefore behind
  simp only [gatherElements_cons]
  apply (hstep hbefore behind).bind
  exact fun next after hnext => gatherElements_uniform_of_found behind hnext after

/-- A clause of the bucket itself is never left to another statement. -/
theorem gatherElement_uniform_of_clause {expressions : ι → Expression}
    (hexpressions : Expression.Carries number expressions) (found : Gathered × ClauseSet)
    (memo : Memo) :
    Uniform (FoundCarries number dropped .value)
      (fun i => gatherElement schema path name found.1 found.2 (.clause (expressions i))) memo := by
  simp only [gatherElement]
  apply (Uniform.liftExcept (found.2.push_uniform hexpressions)).bind
  exact fun pushed after hpushed => .pure (.clauses found.1 hpushed)

theorem gatherElements_uniform_of_clause {expressions : ι → Expression}
    (hexpressions : Expression.Carries number expressions) (found : Gathered × ClauseSet)
    (behind : List Element) (memo : Memo) :
    Uniform (FoundCarries number dropped (behind.foldl Place.after .value))
      (fun i => gatherElements schema path name found.1 found.2
        (.clause (expressions i) :: behind)) memo := by
  simp only [gatherElements_cons]
  apply (gatherElement_uniform_of_clause hexpressions found memo).bind
  exact fun next after hnext => gatherElements_uniform_of_found behind hnext after

theorem entriesUniform {entries : ι → Element} (hentries : Element.Carries number place entries) :
    EntriesUniform schema number place entries := by
  induction hentries with
  | clause hexpressions =>
      apply entriesUniform_of_step
      intro path name before found memo middle _ behind
      exact gatherElement_uniform_of_clause hexpressions found middle
  | @row records hrecords =>
      apply entriesUniform_of_step
      rintro path name before ⟨gathered, clauses⟩ memo middle - behind
      have hgathered {dropped : Prop} : Gathered.Carries number dropped .value fun i =>
          { gathered with rows := gathered.rows ++ [records i] } :=
        .row gathered hrecords (.intro gathered.rows [])
      simp only [gatherElement]
      split
      · exact .bind_same fun _ _ _ => .pure (.gathered hgathered clauses)
      · exact .pure (.gathered hgathered clauses)
  | limit hcounts hsome =>
      apply entriesUniform_of_step
      rintro path name before ⟨gathered, clauses⟩ memo middle - behind
      simp only [gatherElement, positive?_of_pos (hsome _)]
      exact .pure (.gathered (.limit gathered hcounts) clauses)
  | offset hcounts hsome =>
      apply entriesUniform_of_step
      rintro path name before ⟨gathered, clauses⟩ memo middle - behind
      simp only [gatherElement, positive?_of_pos (hsome _)]
      exact .pure (.gathered (.offset gathered hcounts) clauses)
  | @nested place entries hentries inner qualifier label innerBefore innerBehind ih =>
      apply entriesUniform_of_step
      rintro path name before ⟨gathered, clauses⟩ memo middle hbefore behind
      have hstep (i : ι) : Bucket.step ⟨inner, qualifier, label,
          innerBefore ++ entries i :: innerBehind⟩ = ⟨inner, qualifier, label⟩ := rfl
      simp only [gatherElement, hstep]
      apply Uniform.bind_same
      intro join after hjoin
      have hjoin := Succeeds.adapt_iff.mp hjoin
      cases join with
      | none =>
          have hbucket := Bucket.Carries.element hentries inner qualifier label innerBefore
            innerBehind
          have hleaves := LeavesInteger.own hbucket hstep hbefore hjoin behind
          exact .pure (.gathered (.same gathered (.inr hleaves)) clauses)
      | some known =>
          apply (ih.gather (path.child ⟨inner, qualifier, label⟩) inner qualifier label
            innerBefore innerBehind after).bind
          intro below last hbelow
          have hgathered := (hbelow.absorbed (gathered.addJoin known)).mono
            (LeavesInteger.within hstep hbefore hjoin behind)
          rw [Place.below_foldl_after] at hgathered
          exact .pure (.gathered hgathered clauses)

end Elements

end TreeQuery.Plan
