import TreeQuery.Proofs.Catalog.BuiltKeys

/-!
# Determined links

What a schema is built from determines the links between two paths: the first key from the
source's table into the target's, else the first key back, else a junction.  A built schema
answers with the link that is determined, and without a link only where none is.
-/

namespace TreeQuery

/-- The qualifier of the innermost step. -/
def Path.qualifier? (path : Path) : Option String :=
  path.getLast?.bind Step.qualifier

namespace Catalog

/-! ## First entries -/

/-- The first entry of a kind. -/
def First {α : Type} (kind : α → Prop) (entries : List α) (entry : α) : Prop :=
  ∃ before behind, entries = before ++ entry :: behind ∧ kind entry ∧
    ∀ other ∈ before, ¬ kind other

section First

variable {α : Type} {kind : α → Prop} {test : α → Bool} {entries : List α} {entry : α}

theorem First.mem (hfirst : First kind entries entry) : entry ∈ entries := by
  obtain ⟨before, behind, rfl, -, -⟩ := hfirst
  exact List.mem_append_right _ List.mem_cons_self

theorem First.holds (hfirst : First kind entries entry) : kind entry := by
  obtain ⟨_, _, -, hkind, -⟩ := hfirst
  exact hkind

theorem find?_eq_some_iff_first (htest : ∀ entry, test entry = true ↔ kind entry) :
    entries.find? test = some entry ↔ First kind entries entry := by
  simp only [List.find?_eq_some_iff_append, First, htest, Bool.not_eq_true',
    ← Bool.not_eq_true, exists_and_left, and_left_comm]

theorem find?_eq_none_iff_first (htest : ∀ entry, test entry = true ↔ kind entry) :
    entries.find? test = none ↔ ∀ entry, ¬ First kind entries entry := by
  rw [Option.eq_none_iff_forall_ne_some]
  exact forall_congr' fun entry => not_congr (find?_eq_some_iff_first htest)

end First

/-! ## What is determined -/

/-- A key into a table.  A qualifier names the column of the key. -/
def ForeignKey.Into (key : ForeignKey) (table : String) (qualifier : Option String) : Prop :=
  key.targetTable = table ∧ ∀ name, qualifier = some name → key.column = name ++ "_id"

/-- A junction is chosen for two tables in either order. -/
def Junction.Joins (junction : Junction) (first second : String) : Prop :=
  junction.first = first ∧ junction.second = second ∨
    junction.first = second ∧ junction.second = first

namespace Declarations

/-- The keys of a table, the declared ones before the custom ones. -/
def keysOf (declarations : Declarations) (table : String) : List ForeignKey :=
  declarations.foreignKeys.filter fun key => key.table == table

section Paths

variable (declarations : Declarations) (source target : Path)

/-- The first key of the source's table into the target's table. -/
def LeadsTo (key : ForeignKey) : Prop :=
  First (·.Into target.tableName target.qualifier?) (declarations.keysOf source.tableName) key

/-- The first key of the target's table into the source's table. -/
def LeadsBack (key : ForeignKey) : Prop :=
  First (·.Into source.tableName target.qualifier?) (declarations.keysOf target.tableName) key

/-- The first key of a table into the target, and its first key on another column into the
source's table. -/
structure Bridges (interim : String) (toSource toTarget : ForeignKey) : Prop where
  target : First (·.Into target.tableName target.qualifier?) (declarations.keysOf interim) toTarget
  source : First (fun key => key.Into source.tableName none ∧ key.column ≠ toTarget.column)
    (declarations.keysOf interim) toSource

/-- The junction that was chosen last for the two tables. -/
def Chosen (interim : String) : Prop :=
  ∃ junction, First (·.Joins source.tableName target.tableName) declarations.junctions.reverse
    junction ∧ junction.interim = interim

/-- Another table with keys to both. -/
def Candidate (interim : String) : Prop :=
  interim ≠ source.tableName ∧ interim ≠ target.tableName ∧
    ∃ toSource toTarget, declarations.Bridges source target interim toSource toTarget

/-- No key leads from one of the two tables to the other. -/
structure Apart : Prop where
  there : ∀ key, ¬ declarations.LeadsTo source target key
  back : ∀ key, ¬ declarations.LeadsBack source target key

/-- The link between two paths.  A chosen junction keeps other tables from being tried. -/
inductive Determines : Link → Prop
  | manyToOne {key : ForeignKey} (hkey : declarations.LeadsTo source target key) :
      Determines (.manyToOne ⟨key.column, source⟩ ⟨key.targetColumn, target⟩)
  | oneToMany {key : ForeignKey} (hthere : ∀ other, ¬ declarations.LeadsTo source target other)
      (hkey : declarations.LeadsBack source target key) :
      Determines (.oneToMany ⟨key.targetColumn, source⟩ ⟨key.column, target⟩)
  | chosen {interim : String} {toSource toTarget : ForeignKey}
      (hapart : declarations.Apart source target)
      (hchosen : declarations.Chosen source target interim)
      (hbridges : declarations.Bridges source target interim toSource toTarget) :
      Determines (.manyToMany ⟨toSource.targetColumn, source⟩
        ⟨toSource.column, [{ name := interim }]⟩ ⟨toTarget.column, [{ name := interim }]⟩
        ⟨toTarget.targetColumn, target⟩)
  | only {interim : String} {toSource toTarget : ForeignKey}
      (hapart : declarations.Apart source target)
      (hchosen : ∀ other, ¬ declarations.Chosen source target other)
      (hcandidate : declarations.Candidate source target interim)
      (honly : ∀ other, declarations.Candidate source target other → other = interim)
      (hbridges : declarations.Bridges source target interim toSource toTarget) :
      Determines (.manyToMany ⟨toSource.targetColumn, source⟩
        ⟨toSource.column, [{ name := interim }]⟩ ⟨toTarget.column, [{ name := interim }]⟩
        ⟨toTarget.targetColumn, target⟩)

/-- The answer where no link is determined: there is none, or the chosen junction does not
bridge the two tables, or several others do. -/
inductive Undetermined : Except SchemaError (Option Link) → Prop
  | unrelated (hapart : declarations.Apart source target)
      (hchosen : ∀ other, ¬ declarations.Chosen source target other)
      (hcandidate : ∀ other, ¬ declarations.Candidate source target other) :
      Undetermined (.ok none)
  | invalid {interim : String} (hapart : declarations.Apart source target)
      (hchosen : declarations.Chosen source target interim)
      (hbridges : ∀ toSource toTarget,
        ¬ declarations.Bridges source target interim toSource toTarget) :
      Undetermined (.error (.invalidJunction source.tableName target.tableName interim))
  | ambiguous {candidates : List String} (hapart : declarations.Apart source target)
      (hchosen : ∀ other, ¬ declarations.Chosen source target other)
      (horder : candidates.Sublist declarations.tableNames)
      (hcandidate : ∀ other, other ∈ candidates ↔ declarations.Candidate source target other)
      (hseveral : 2 ≤ candidates.length) :
      Undetermined (.error (.ambiguousJunction source.tableName target.tableName candidates))

end Paths

/-! ## Searches of a built schema -/

variable {declarations : Declarations} {schema : Schema} {source target : Path}
  {sourceStep targetStep : Step} {interim : String} {toSource toTarget key : ForeignKey}

theorem mem_keysOf {table : String} :
    key ∈ declarations.keysOf table ↔ key ∈ declarations.foreignKeys ∧ key.table = table := by
  rw [keysOf, List.mem_filter, beq_iff_eq]

theorem leadsTo_iff {step : Step} :
    key.leadsTo step = true ↔ key.Into step.name step.qualifier := by
  rw [ForeignKey.leadsTo, Bool.and_eq_true, beq_iff_eq, ForeignKey.Into]
  cases step.qualifier with
  | none => simp
  | some qualifier => simp

theorem Builds.find?_eq_some_iff (hbuilds : declarations.Builds schema) {table : String}
    {test : ForeignKey → Bool} {kind : ForeignKey → Prop}
    (htest : ∀ key, test key = true ↔ kind key) :
    (schema.graph.outgoing table).find? test = some key ↔
      First kind (declarations.keysOf table) key := by
  rw [hbuilds.graph.find?_outgoing]
  exact find?_eq_some_iff_first htest

theorem Builds.find?_eq_none_iff (hbuilds : declarations.Builds schema) {table : String}
    {test : ForeignKey → Bool} {kind : ForeignKey → Prop}
    (htest : ∀ key, test key = true ↔ kind key) :
    (schema.graph.outgoing table).find? test = none ↔
      ∀ key, ¬ First kind (declarations.keysOf table) key := by
  rw [hbuilds.graph.find?_outgoing]
  exact find?_eq_none_iff_first htest

/-- A path that ends in a step. -/
structure EndsIn (path : Path) (step : Step) : Prop where
  last : path.getLast? = some step
  tableName : path.tableName = step.name
  qualifier : path.qualifier? = step.qualifier

theorem exists_endsIn {path : Path} (hpath : path ≠ []) : ∃ step, EndsIn path step := by
  have hlast := List.getLast?_eq_some_getLast hpath
  refine ⟨path.getLast hpath, hlast, ?_, ?_⟩
  · rw [Path.tableName, hlast]
  · rw [Path.qualifier?, hlast, Option.bind_some]

/-- A built schema is asked for the link between two paths. -/
structure Asked (declarations : Declarations) (schema : Schema) (source target : Path)
    (sourceStep targetStep : Step) : Prop where
  builds : declarations.Builds schema
  source : EndsIn source sourceStep
  target : EndsIn target targetStep

namespace Asked

variable (hasked : Asked declarations schema source target sourceStep targetStep)
include hasked

theorem leadsTo_target_iff (key : ForeignKey) :
    key.leadsTo targetStep = true ↔ key.Into target.tableName target.qualifier? := by
  rw [hasked.target.tableName, hasked.target.qualifier]
  exact leadsTo_iff

theorem leadsTo_source_iff (key : ForeignKey) :
    key.leadsTo { name := sourceStep.name, qualifier := targetStep.qualifier } = true ↔
      key.Into source.tableName target.qualifier? := by
  rw [hasked.source.tableName, hasked.target.qualifier]
  exact leadsTo_iff

theorem leadsTo_bare_iff (column : String) (key : ForeignKey) :
    (key.leadsTo sourceStep.bare && key.column != column) = true ↔
      key.Into source.tableName none ∧ key.column ≠ column := by
  rw [Bool.and_eq_true, bne_iff_ne, hasked.source.tableName]
  exact and_congr_left' leadsTo_iff

theorem manyToOne?_eq_some_iff {link : Link} :
    schema.manyToOne? source target targetStep = some link ↔
      ∃ key, declarations.LeadsTo source target key ∧
        .manyToOne ⟨key.column, source⟩ ⟨key.targetColumn, target⟩ = link := by
  rw [Schema.manyToOne?, Option.map_eq_some_iff]
  exact exists_congr fun key =>
    and_congr_left' (hasked.builds.find?_eq_some_iff hasked.leadsTo_target_iff)

theorem manyToOne?_eq_none_iff :
    schema.manyToOne? source target targetStep = none ↔
      ∀ key, ¬ declarations.LeadsTo source target key := by
  rw [Schema.manyToOne?, Option.map_eq_none_iff]
  exact hasked.builds.find?_eq_none_iff hasked.leadsTo_target_iff

theorem oneToMany?_eq_some_iff {link : Link} :
    schema.oneToMany? source target sourceStep targetStep = some link ↔
      ∃ key, declarations.LeadsBack source target key ∧
        .oneToMany ⟨key.targetColumn, source⟩ ⟨key.column, target⟩ = link := by
  rw [Schema.oneToMany?, Option.map_eq_some_iff, ← hasked.target.tableName]
  exact exists_congr fun key =>
    and_congr_left' (hasked.builds.find?_eq_some_iff hasked.leadsTo_source_iff)

theorem oneToMany?_eq_none_iff :
    schema.oneToMany? source target sourceStep targetStep = none ↔
      ∀ key, ¬ declarations.LeadsBack source target key := by
  rw [Schema.oneToMany?, Option.map_eq_none_iff, ← hasked.target.tableName]
  exact hasked.builds.find?_eq_none_iff hasked.leadsTo_source_iff

theorem junctionKeys?_eq_some_iff :
    schema.junctionKeys? interim sourceStep targetStep = some (toSource, toTarget) ↔
      declarations.Bridges source target interim toSource toTarget := by
  constructor
  · intro hkeys
    obtain ⟨found, hfound, hkeys⟩ := Option.bind_eq_some_iff.mp hkeys
    obtain ⟨other, hother, hkeys⟩ := Option.bind_eq_some_iff.mp hkeys
    obtain ⟨rfl, rfl⟩ := Prod.mk.inj (Option.some.inj hkeys)
    exact ⟨(hasked.builds.find?_eq_some_iff hasked.leadsTo_target_iff).mp hfound,
      (hasked.builds.find?_eq_some_iff (hasked.leadsTo_bare_iff _)).mp hother⟩
  · intro hbridges
    apply Option.bind_eq_some_iff.mpr
    refine ⟨toTarget, (hasked.builds.find?_eq_some_iff hasked.leadsTo_target_iff).mpr
      hbridges.target, Option.bind_eq_some_iff.mpr ⟨toSource, ?_, rfl⟩⟩
    exact (hasked.builds.find?_eq_some_iff (hasked.leadsTo_bare_iff _)).mpr hbridges.source

theorem chosenJunction?_eq_some_iff :
    schema.chosenJunction? sourceStep.name targetStep.name = some interim ↔
      declarations.Chosen source target interim := by
  rw [Schema.chosenJunction?, Option.map_eq_some_iff, hasked.builds.junctions,
    ← hasked.source.tableName, ← hasked.target.tableName]
  apply exists_congr
  intro junction
  apply and_congr_left'
  apply find?_eq_some_iff_first
  intro other
  simp [Junction.Joins]

/-- A table with keys is among the declared ones. -/
theorem mem_tableNames {table : String} (hkey : key ∈ declarations.keysOf table) :
    table ∈ declarations.tableNames := by
  obtain ⟨hmember, rfl⟩ := mem_keysOf.mp hkey
  exact hasked.builds.graph.owners key (hasked.builds.graph.mem_iff.mpr hmember)

theorem mem_junctionCandidates_iff :
    (interim, toSource, toTarget) ∈ schema.junctionCandidates sourceStep targetStep ↔
      interim ≠ source.tableName ∧ interim ≠ target.tableName ∧
        declarations.Bridges source target interim toSource toTarget := by
  rw [← hasked.junctionKeys?_eq_some_iff, hasked.source.tableName, hasked.target.tableName,
    Schema.junctionCandidates, List.mem_filterMap]
  constructor
  · rintro ⟨table, -, hkeys⟩
    split at hkeys
    · cases hkeys
    · next hother =>
        obtain ⟨found, hfound, hsame⟩ := Option.map_eq_some_iff.mp hkeys
        obtain ⟨rfl, rfl⟩ := Prod.mk.inj hsame
        simp only [Bool.or_eq_true, beq_iff_eq, not_or] at hother
        exact ⟨hother.1, hother.2, hfound⟩
  · rintro ⟨hfirst, hsecond, hkeys⟩
    have hbridges := hasked.junctionKeys?_eq_some_iff.mp hkeys
    refine ⟨interim, ?_, ?_⟩
    · rw [hasked.builds.graph.tables]
      exact hasked.mem_tableNames hbridges.target.mem
    · rw [if_neg (by simp [hfirst, hsecond]), hkeys, Option.map_some]

theorem mem_candidateNames_iff :
    interim ∈ (schema.junctionCandidates sourceStep targetStep).map Prod.fst ↔
      declarations.Candidate source target interim := by
  constructor
  · intro hmember
    obtain ⟨⟨table, toSource, toTarget⟩, hcandidate, rfl⟩ := List.mem_map.mp hmember
    obtain ⟨hfirst, hsecond, hbridges⟩ := hasked.mem_junctionCandidates_iff.mp hcandidate
    exact ⟨hfirst, hsecond, toSource, toTarget, hbridges⟩
  · rintro ⟨hfirst, hsecond, toSource, toTarget, hbridges⟩
    exact List.mem_map_of_mem
      (hasked.mem_junctionCandidates_iff.mpr ⟨hfirst, hsecond, hbridges⟩)

/-- Candidates are listed in the order of the declared tables. -/
theorem candidateNames_sublist :
    ((schema.junctionCandidates sourceStep targetStep).map Prod.fst).Sublist
      declarations.tableNames := by
  have hnames : (schema.junctionCandidates sourceStep targetStep).map Prod.fst =
      schema.graph.tables.filter fun table =>
        !(table == sourceStep.name || table == targetStep.name) &&
          (schema.junctionKeys? table sourceStep targetStep).isSome := by
    rw [Schema.junctionCandidates, List.map_filterMap, ← List.filterMap_eq_filter]
    apply List.filterMap_congr
    intro table _
    cases hother : (table == sourceStep.name || table == targetStep.name) <;>
      cases hkeys : schema.junctionKeys? table sourceStep targetStep <;>
      simp [hother, hkeys, Option.guard]
  rw [hnames, hasked.builds.graph.tables]
  exact List.filter_sublist

/-! ## The answer -/

theorem linkBetween_of_leadsTo (hkey : declarations.LeadsTo source target key) :
    schema.linkBetween source target =
      .ok (some (.manyToOne ⟨key.column, source⟩ ⟨key.targetColumn, target⟩)) := by
  have hthere := hasked.manyToOne?_eq_some_iff.mpr ⟨key, hkey, rfl⟩
  simp only [Schema.linkBetween, hasked.source.last, hasked.target.last, hthere]

theorem linkBetween_of_leadsBack (hthere : ∀ other, ¬ declarations.LeadsTo source target other)
    (hkey : declarations.LeadsBack source target key) :
    schema.linkBetween source target =
      .ok (some (.oneToMany ⟨key.targetColumn, source⟩ ⟨key.column, target⟩)) := by
  have hnone := hasked.manyToOne?_eq_none_iff.mpr hthere
  have hback := hasked.oneToMany?_eq_some_iff.mpr ⟨key, hkey, rfl⟩
  simp only [Schema.linkBetween, hasked.source.last, hasked.target.last, hnone, hback]

theorem linkBetween_of_apart (hapart : declarations.Apart source target) :
    schema.linkBetween source target =
      schema.manyToMany? source target sourceStep targetStep := by
  have hthere := hasked.manyToOne?_eq_none_iff.mpr hapart.there
  have hback := hasked.oneToMany?_eq_none_iff.mpr hapart.back
  simp only [Schema.linkBetween, hasked.source.last, hasked.target.last, hthere, hback]

theorem manyToMany?_of_bridges (hchosen : declarations.Chosen source target interim)
    (hbridges : declarations.Bridges source target interim toSource toTarget) :
    schema.manyToMany? source target sourceStep targetStep =
      .ok (some (Schema.junctionLink source target interim toSource toTarget)) := by
  have hjunction := hasked.chosenJunction?_eq_some_iff.mpr hchosen
  have hkeys := hasked.junctionKeys?_eq_some_iff.mpr hbridges
  simp only [Schema.manyToMany?, hjunction, hkeys]

theorem manyToMany?_of_not_bridges (hchosen : declarations.Chosen source target interim)
    (hbridges : ∀ toSource toTarget,
      ¬ declarations.Bridges source target interim toSource toTarget) :
    schema.manyToMany? source target sourceStep targetStep =
      .error (.invalidJunction source.tableName target.tableName interim) := by
  have hjunction := hasked.chosenJunction?_eq_some_iff.mpr hchosen
  have hkeys : schema.junctionKeys? interim sourceStep targetStep = none := by
    apply Option.eq_none_iff_forall_ne_some.mpr
    intro keys hkeys
    exact hbridges keys.1 keys.2 (hasked.junctionKeys?_eq_some_iff.mp hkeys)
  simp only [Schema.manyToMany?, hjunction, hkeys, hasked.source.tableName,
    hasked.target.tableName]

theorem chosenJunction?_eq_none (hchosen : ∀ other, ¬ declarations.Chosen source target other) :
    schema.chosenJunction? sourceStep.name targetStep.name = none := by
  apply Option.eq_none_iff_forall_ne_some.mpr
  intro other hother
  exact hchosen other (hasked.chosenJunction?_eq_some_iff.mp hother)

theorem junctionCandidates_eq_singleton (hcandidate : declarations.Candidate source target interim)
    (honly : ∀ other, declarations.Candidate source target other → other = interim)
    (hbridges : declarations.Bridges source target interim toSource toTarget) :
    schema.junctionCandidates sourceStep targetStep = [(interim, toSource, toTarget)] := by
  have hmember : (interim, toSource, toTarget) ∈
      schema.junctionCandidates sourceStep targetStep :=
    hasked.mem_junctionCandidates_iff.mpr ⟨hcandidate.1, hcandidate.2.1, hbridges⟩
  have hsame : ∀ other ∈ (schema.junctionCandidates sourceStep targetStep).map Prod.fst,
      other = interim := fun other hother => honly other (hasked.mem_candidateNames_iff.mp hother)
  have hnodup := hasked.candidateNames_sublist.nodup hasked.builds.distinct
  cases hcandidates : schema.junctionCandidates sourceStep targetStep with
  | nil =>
      rw [hcandidates] at hmember
      cases hmember
  | cons first rest =>
      rw [hcandidates] at hmember hsame hnodup
      cases rest with
      | nil => rw [List.mem_singleton.mp hmember]
      | cons second rest =>
          -- two candidates would be one table, listed twice
          have hfirst := hsame first.1 List.mem_cons_self
          have hsecond := hsame second.1 (List.mem_cons_of_mem _ List.mem_cons_self)
          simp [hfirst, hsecond] at hnodup

/-- A link that is determined is the answer. -/
theorem linkBetween_of_determines {link : Link}
    (hdetermines : declarations.Determines source target link) :
    schema.linkBetween source target = .ok (some link) := by
  cases hdetermines with
  | manyToOne hkey => exact hasked.linkBetween_of_leadsTo hkey
  | oneToMany hthere hkey => exact hasked.linkBetween_of_leadsBack hthere hkey
  | chosen hapart hchosen hbridges =>
      rw [hasked.linkBetween_of_apart hapart, hasked.manyToMany?_of_bridges hchosen hbridges]
      rfl
  | only hapart hchosen hcandidate honly hbridges =>
      have hjunction := hasked.chosenJunction?_eq_none hchosen
      have hcandidates := hasked.junctionCandidates_eq_singleton hcandidate honly hbridges
      rw [hasked.linkBetween_of_apart hapart]
      simp only [Schema.manyToMany?, hjunction, hcandidates, Schema.junctionLink]

theorem determines_or_undetermined_of_chosen (hapart : declarations.Apart source target)
    (hchosen : declarations.Chosen source target interim) :
    (∃ link, declarations.Determines source target link) ∨
      declarations.Undetermined source target
        (schema.manyToMany? source target sourceStep targetStep) := by
  by_cases hbridges : ∃ keys : ForeignKey × ForeignKey,
    declarations.Bridges source target interim keys.1 keys.2
  · obtain ⟨keys, hbridges⟩ := hbridges
    exact .inl ⟨_, .chosen hapart hchosen hbridges⟩
  · have hnone (toSource toTarget : ForeignKey) :
        ¬ declarations.Bridges source target interim toSource toTarget :=
      fun hbridge => hbridges ⟨(toSource, toTarget), hbridge⟩
    rw [hasked.manyToMany?_of_not_bridges hchosen hnone]
    exact .inr (.invalid hapart hchosen hnone)

theorem determines_or_undetermined_of_not_chosen (hapart : declarations.Apart source target)
    (hchosen : ∀ other, ¬ declarations.Chosen source target other) :
    (∃ link, declarations.Determines source target link) ∨
      declarations.Undetermined source target
        (schema.manyToMany? source target sourceStep targetStep) := by
  have hjunction := hasked.chosenJunction?_eq_none hchosen
  have hnames (other : String) :
      other ∈ (schema.junctionCandidates sourceStep targetStep).map Prod.fst ↔
        declarations.Candidate source target other := hasked.mem_candidateNames_iff
  have horder := hasked.candidateNames_sublist
  cases hcandidates : schema.junctionCandidates sourceStep targetStep with
  | nil =>
      rw [hcandidates] at hnames
      simp only [Schema.manyToMany?, hjunction, hcandidates]
      refine .inr (.unrelated hapart hchosen fun other hother => ?_)
      exact List.not_mem_nil ((hnames other).mpr hother)
  | cons first rest =>
      rw [hcandidates] at hnames horder
      cases rest with
      | nil =>
          obtain ⟨interim, toSource, toTarget⟩ := first
          have hmember : (interim, toSource, toTarget) ∈
              schema.junctionCandidates sourceStep targetStep := by
            rw [hcandidates]
            exact List.mem_singleton_self _
          obtain ⟨hsource, htarget, hbridges⟩ := hasked.mem_junctionCandidates_iff.mp hmember
          refine .inl ⟨_, .only hapart hchosen ⟨hsource, htarget, toSource, toTarget, hbridges⟩
            (fun other hother => ?_) hbridges⟩
          exact List.mem_singleton.mp ((hnames other).mpr hother)
      | cons second rest =>
          simp only [Schema.manyToMany?, hjunction, hcandidates]
          rw [← hasked.source.tableName, ← hasked.target.tableName]
          exact .inr (.ambiguous hapart hchosen horder hnames (by simp))

/-- A link is determined, or the answer says why none is. -/
theorem determines_or_undetermined :
    (∃ link, declarations.Determines source target link) ∨
      declarations.Undetermined source target (schema.linkBetween source target) := by
  by_cases hthere : ∃ key, declarations.LeadsTo source target key
  · obtain ⟨key, hkey⟩ := hthere
    exact .inl ⟨_, .manyToOne hkey⟩
  by_cases hback : ∃ key, declarations.LeadsBack source target key
  · obtain ⟨key, hkey⟩ := hback
    exact .inl ⟨_, .oneToMany (not_exists.mp hthere) hkey⟩
  have hapart : declarations.Apart source target := ⟨not_exists.mp hthere, not_exists.mp hback⟩
  rw [hasked.linkBetween_of_apart hapart]
  by_cases hchosen : ∃ interim, declarations.Chosen source target interim
  · obtain ⟨interim, hchosen⟩ := hchosen
    exact hasked.determines_or_undetermined_of_chosen hapart hchosen
  · exact hasked.determines_or_undetermined_of_not_chosen hapart (not_exists.mp hchosen)

theorem linkBetween_eq_some_iff {link : Link} :
    schema.linkBetween source target = .ok (some link) ↔
      declarations.Determines source target link := by
  constructor
  · intro hlink
    rcases hasked.determines_or_undetermined with ⟨other, hother⟩ | hundetermined
    · rw [hasked.linkBetween_of_determines hother] at hlink
      rwa [← Option.some.inj (Except.ok.inj hlink)]
    · rw [hlink] at hundetermined
      cases hundetermined
  · exact hasked.linkBetween_of_determines

theorem undetermined_linkBetween_iff :
    declarations.Undetermined source target (schema.linkBetween source target) ↔
      ∀ link, ¬ declarations.Determines source target link := by
  constructor
  · intro hundetermined link hlink
    rw [hasked.linkBetween_of_determines hlink] at hundetermined
    cases hundetermined
  · exact fun hnone => hasked.determines_or_undetermined.resolve_left (not_exists.mpr hnone)

end Asked

end Declarations

end Catalog

end TreeQuery
