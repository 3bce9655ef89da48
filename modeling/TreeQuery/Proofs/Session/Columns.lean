import TreeQuery.Proofs.Plan.Building
import TreeQuery.Proofs.Session.Preparing

/-!
# The columns of a prepared bucket

The statement of a prepared bucket names every column by its site: by the output names
that lead to it, joined.  Columns that were asked for are among them, and so are the
keys of everything that is read later.
-/

namespace TreeQuery

open Catalog (DescendAll Descends Link Memo ResolvedColumn Schema)

/-- The steps of a bucket and the columns it asks for have plain names, at every level
of nesting. -/
def Bucket.Plain (bucket : Bucket) : Prop :=
  ∀ inner, Bucket.Within inner bucket →
    inner.step.Plain ∧ ∀ name, .item (.column name) ∈ inner.elements → PlainName name

instance (bucket : Bucket) : Decidable bucket.Plain :=
  decidable_of_iff (∀ inner ∈ bucket.levels,
      inner.step.Plain ∧ ∀ name ∈ inner.columns, PlainName name)
    ⟨fun hlevels inner hwithin =>
        ⟨(hlevels inner (Bucket.mem_levels.mpr hwithin)).1, fun name hname =>
          (hlevels inner (Bucket.mem_levels.mpr hwithin)).2 name (Session.mem_columns.mpr hname)⟩,
      fun hplain inner hmem => ⟨(hplain inner (Bucket.mem_levels.mp hmem)).1, fun name hname =>
        (hplain inner (Bucket.mem_levels.mp hmem)).2 name (Session.mem_columns.mp hname)⟩⟩

theorem Bucket.Plain.exists_root {bucket : Bucket} (hplain : bucket.Plain) :
    ∃ root : Step, bucket.rootPath = [root] ∧ root.name = bucket.name ∧ root.Plain := by
  have hstep : bucket.step.Plain := (hplain bucket .self).1
  rw [Bucket.rootPath]
  split
  · exact ⟨_, rfl, rfl, hstep⟩
  · exact ⟨_, rfl, rfl, hstep.bare⟩

theorem Bucket.Plain.rootPath {bucket : Bucket} (hplain : bucket.Plain) :
    Path.Plain bucket.rootPath := by
  obtain ⟨root, hroot, -, hrootPlain⟩ := hplain.exists_root
  rw [hroot]
  exact ⟨List.cons_ne_nil _ _, fun step hstep => List.mem_singleton.mp hstep ▸ hrootPlain⟩

namespace Session

/-- The columns among the elements have plain names, and so have the nested buckets. -/
structure PlainElements (elements : List Element) : Prop where
  columns : ∀ name, .item (.column name) ∈ elements → PlainName name
  children : ∀ child, .bucket child ∈ elements → child.Plain

variable {schema : Schema} {memo : Memo} {place deepPlace : Path} {path : List String}
  {elements deepElements : List Element}

theorem PlainElements.of_bucket {bucket : Bucket} (hplain : bucket.Plain) :
    PlainElements bucket.elements :=
  ⟨(hplain bucket .self).2, fun _ hchild inner hwithin => hplain inner (.nested hchild hwithin)⟩

theorem PlainElements.tail {element : Element} (hplain : PlainElements (element :: elements)) :
    PlainElements elements :=
  ⟨fun name hcolumn => hplain.columns name (List.mem_cons_of_mem _ hcolumn),
    fun child hchild => hplain.children child (List.mem_cons_of_mem _ hchild)⟩

theorem PlainElements.child {child : Bucket} (hplain : PlainElements elements)
    (hchild : .bucket child ∈ elements) : PlainElements child.elements :=
  .of_bucket (hplain.children child hchild)

theorem PlainElements.step {child : Bucket} (hplain : PlainElements elements)
    (hchild : .bucket child ∈ elements) : child.step.Plain :=
  (hplain.children child hchild child .self).1

theorem PlainElements.descendAll (hplain : PlainElements elements) :
    DescendAll Path.Plain elements :=
  fun child hchild inner hwithin _ hplace =>
    hplace.child (hplain.children child hchild inner hwithin).1

/-- A bucket of plain names stays one with other plain elements. -/
theorem PlainElements.bucket {child : Bucket} {inner : List Element} (hstep : child.step.Plain)
    (hplain : PlainElements inner) : Bucket.Plain { child with elements := inner } := by
  intro other hwithin
  cases hwithin with
  | self => exact ⟨hstep, hplain.columns⟩
  | nested hchild hwithin => exact hplain.children _ hchild other hwithin

/-- A prepared bucket has plain names. -/
theorem Prepares.plainElements (hschema : schema.Plain) {requested : List String}
    {findings found : Findings} {others : List Element}
    (hprepares : Prepares schema place path requested findings elements others found)
    (hplain : PlainElements elements) : PlainElements others := by
  induction hprepares with
  | nil => exact hplain
  | @deferred place path requested findings after child link rest others hlink hdeferred hrest
      ih =>
      have hothers := ih hplain.tail
      have hkey := ((Schema.linkBetween_ok hlink).plainNames hschema).1
      constructor
      · intro name hcolumn
        rcases List.mem_append.mp hcolumn with hadded | hcolumn
        · obtain rfl := Item.column.inj (ElementOf.item.inj (eq_of_mem_needKey hadded))
          exact hkey
        · exact hothers.columns name hcolumn
      · intro nested hnested
        apply hothers.children nested
        exact (List.mem_append.mp hnested).resolve_left fun hadded =>
          nomatch eq_of_mem_needKey hadded
  | @joined place path requested findings middle after child link elements rest others hlink
      hjoined hchild hrest ihchild ihrest =>
      have hothers := ihrest hplain.tail
      have hinner := ihchild (hplain.child List.mem_cons_self)
      constructor
      · intro name hcolumn
        exact hothers.columns name ((List.mem_cons.mp hcolumn).resolve_left nofun)
      · intro nested hnested
        rcases List.mem_cons.mp hnested with hhead | hnested
        · obtain rfl := ElementOf.bucket.inj hhead
          exact hinner.bucket (hplain.step List.mem_cons_self)
        · exact hothers.children nested hnested
  | @other place path requested findings after element rest others hother hrest ih =>
      have hothers := ih hplain.tail
      constructor
      · intro name hcolumn
        rcases List.mem_cons.mp hcolumn with rfl | hcolumn
        · exact hplain.columns name List.mem_cons_self
        · exact hothers.columns name hcolumn
      · intro nested hnested
        rcases List.mem_cons.mp hnested with rfl | hnested
        · cases hother
        · exact hothers.children nested hnested

namespace Reached

/-- What is reached lies below steps that are named on the way. -/
theorem exists_steps (hplain : PlainElements elements)
    (hreached : Reached schema place elements path deepPlace deepElements) :
    ∃ steps : List Step, deepPlace = place ++ steps ∧ path = steps.map Step.outputName ∧
      (∀ step ∈ steps, step.Plain) ∧ PlainElements deepElements := by
  induction hreached with
  | here => exact ⟨[], (List.append_nil _).symm, rfl, nofun, hplain⟩
  | @through place deepPlace elements deepElements child link path hchild hlink hjoined hreached
      ih =>
      obtain ⟨steps, hplace, hpath, hsteps, hdeep⟩ := ih (hplain.child hchild)
      refine ⟨child.step :: steps, ?_, ?_, ?_, hdeep⟩
      · rw [hplace, Path.child, List.append_assoc, List.singleton_append]
      · rw [hpath, List.map_cons, Bucket.outputName]
      · exact List.forall_mem_cons.mpr ⟨hplain.step hchild, hsteps⟩

/-- Below a root, a column is named by its site. -/
theorem resultName {root : Step} (hplain : PlainElements elements)
    (hreached : Reached schema [root] elements path deepPlace deepElements) (name : String) :
    Address.resultName ⟨name, deepPlace⟩ = Segments.join (path ++ [name]) := by
  obtain ⟨steps, rfl, rfl, -⟩ := hreached.exists_steps hplain
  exact Address.resultName_eq_join root steps name

/-- The site of a column is read back from its name. -/
theorem ofString_join (hschema : schema.Plain) (hplain : PlainElements elements)
    (hreached : Reached schema place elements path deepPlace deepElements) {name : String}
    (hcolumn : schema.hasColumn deepPlace.tableName name = true) :
    Segments.ofString (Segments.join (path ++ [name])) = path ++ [name] := by
  obtain ⟨steps, -, rfl, hsteps, -⟩ := hreached.exists_steps hplain
  exact Address.ofString_join_outputNames hsteps (hschema.hasColumn hcolumn)

end Reached

/-! ## Gathered columns -/

/-- Every gathered column was asked for somewhere, and the table there has it. -/
theorem exists_reached (hplain : PlainElements elements) (hplace : Path.Plain place)
    (hfaithful : Memo.Faithful schema memo) {columns : List ResolvedColumn}
    (hgathers : Plan.Gathers memo place elements columns) {column : ResolvedColumn}
    (hcolumn : column ∈ columns) :
    ∃ name path deepPlace deepElements,
      Reached schema place elements path deepPlace deepElements ∧
      .item (.column name) ∈ deepElements ∧ schema.hasColumn deepPlace.tableName name = true ∧
      column.resultName = Address.resultName ⟨name, deepPlace⟩ := by
  have hrest : ∀ {place : Path} {element : Element} {rest : List Element},
      (∃ name path deepPlace deepElements,
        Reached schema place rest path deepPlace deepElements ∧
        .item (.column name) ∈ deepElements ∧ schema.hasColumn deepPlace.tableName name = true ∧
        column.resultName = Address.resultName ⟨name, deepPlace⟩) →
      ∃ name path deepPlace deepElements,
        Reached schema place (element :: rest) path deepPlace deepElements ∧
        .item (.column name) ∈ deepElements ∧ schema.hasColumn deepPlace.tableName name = true ∧
        column.resultName = Address.resultName ⟨name, deepPlace⟩ := by
    rintro place element rest ⟨name, path, deepPlace, deepElements, hreached, hname, hknown⟩
    cases hreached with
    | here => exact ⟨name, [], _, _, .here, List.mem_cons_of_mem _ hname, hknown⟩
    | through hchild hlink hjoined hreached =>
        exact ⟨name, _, _, _, .through (List.mem_cons_of_mem _ hchild) hlink hjoined hreached,
          hname, hknown⟩
  induction hgathers with
  | nil => cases hcolumn
  | @column place name head rest columns hknows hgathers ih =>
      rcases List.mem_cons.mp hcolumn with rfl | hcolumn
      · have hname : PlainName name := hplain.columns name List.mem_cons_self
        obtain ⟨hhas, -, -, hresult⟩ :=
          hfaithful.columns ⟨name, place⟩ column hplace hname hknows
        exact ⟨name, [], place, _, .here, List.mem_cons_self, hhas, hresult⟩
      · exact hrest (ih hplain.tail hplace hcolumn)
  | @joined place child link rest below columns hknows hjoined hchild hgathers ihchild ihrest =>
      have hchildPlace : Path.Plain (place.child child.step) :=
        hplace.child (hplain.step List.mem_cons_self)
      have hlink := hfaithful.links _ _ link hplace hchildPlace hknows
      rcases List.mem_append.mp hcolumn with hcolumn | hcolumn
      · obtain ⟨name, path, deepPlace, deepElements, hreached, hdeep⟩ :=
          ihchild (hplain.child List.mem_cons_self) hchildPlace hcolumn
        exact ⟨name, _, deepPlace, deepElements,
          .through List.mem_cons_self hlink hjoined hreached, hdeep⟩
      · exact hrest (ihrest hplain.tail hplace hcolumn)
  | deferred hknows hdeferred hgathers ih => exact hrest (ih hplain.tail hplace hcolumn)
  | other hbucket hname hgathers ih => exact hrest (ih hplain.tail hplace hcolumn)

theorem gathered_column {columns : List ResolvedColumn}
    (hgathers : Plan.Gathers memo place elements columns) {name : String}
    (hname : .item (.column name) ∈ elements) :
    ∃ column ∈ columns, memo.KnowsColumn ⟨name, place⟩ column := by
  induction hgathers with
  | nil => cases hname
  | @column place head column rest columns hknows hgathers ih =>
      rcases List.mem_cons.mp hname with hhead | hname
      · obtain rfl := Item.column.inj (ElementOf.item.inj hhead)
        exact ⟨column, List.mem_cons_self, hknows⟩
      · obtain ⟨other, hother, hotherKnows⟩ := ih hname
        exact ⟨other, List.mem_cons_of_mem _ hother, hotherKnows⟩
  | joined hknows hjoined hchild hgathers ihchild ihrest =>
      obtain ⟨other, hother, hotherKnows⟩ := ihrest ((List.mem_cons.mp hname).resolve_left nofun)
      exact ⟨other, List.mem_append_right _ hother, hotherKnows⟩
  | deferred hknows hdeferred hgathers ih =>
      exact ih ((List.mem_cons.mp hname).resolve_left nofun)
  | other hbucket hcolumn hgathers ih =>
      rcases List.mem_cons.mp hname with rfl | hname
      · cases hcolumn
      · exact ih hname

theorem gathered_child {columns : List ResolvedColumn}
    (hgathers : Plan.Gathers memo place elements columns) {child : Bucket}
    (hchild : .bucket child ∈ elements) :
    ∃ link, memo.KnowsLink place (place.child child.step) link ∧
      (link.isDeferred = false → ∃ below,
        Plan.Gathers memo (place.child child.step) child.elements below ∧
          ∀ column ∈ below, column ∈ columns) := by
  have hgoOn : ∀ {place : Path} {more all : List ResolvedColumn},
      (∀ column ∈ more, column ∈ all) →
      (∃ link, memo.KnowsLink place (place.child child.step) link ∧
        (link.isDeferred = false → ∃ below,
          Plan.Gathers memo (place.child child.step) child.elements below ∧
            ∀ column ∈ below, column ∈ more)) →
      ∃ link, memo.KnowsLink place (place.child child.step) link ∧
        (link.isDeferred = false → ∃ below,
          Plan.Gathers memo (place.child child.step) child.elements below ∧
            ∀ column ∈ below, column ∈ all) := by
    rintro place more all hmore ⟨link, hknows, hbelow⟩
    refine ⟨link, hknows, fun hjoined => ?_⟩
    obtain ⟨below, hchild, hsubset⟩ := hbelow hjoined
    exact ⟨below, hchild, fun column hcolumn => hmore column (hsubset column hcolumn)⟩
  induction hgathers with
  | nil => cases hchild
  | column hknows hgathers ih =>
      exact hgoOn (fun _ => List.mem_cons_of_mem _)
        (ih ((List.mem_cons.mp hchild).resolve_left nofun))
  | @joined place nested link rest below columns hknows hjoined hnested hgathers ihchild ihrest =>
      rcases List.mem_cons.mp hchild with hhead | hchild
      · obtain rfl := ElementOf.bucket.inj hhead
        exact ⟨link, hknows, fun _ => ⟨below, hnested, fun _ => List.mem_append_left _⟩⟩
      · exact hgoOn (fun _ => List.mem_append_right _) (ihrest hchild)
  | @deferred place nested link rest columns hknows hdeferred hgathers ih =>
      rcases List.mem_cons.mp hchild with hhead | hchild
      · obtain rfl := ElementOf.bucket.inj hhead
        refine ⟨link, hknows, fun hjoined => ?_⟩
        rw [hdeferred] at hjoined
        cases hjoined
      · exact ih hchild
  | other hbucket hcolumn hgathers ih =>
      rcases List.mem_cons.mp hchild with rfl | hchild
      · cases hbucket
      · exact ih hchild

/-- Every column that is asked for is gathered, and the table there has it. -/
theorem exists_gathered (hplain : PlainElements elements) (hplace : Path.Plain place)
    (hfaithful : Memo.Faithful schema memo) {columns : List ResolvedColumn}
    (hgathers : Plan.Gathers memo place elements columns)
    (hreached : Reached schema place elements path deepPlace deepElements) {name : String}
    (hname : .item (.column name) ∈ deepElements) :
    schema.hasColumn deepPlace.tableName name = true ∧
      ∃ column ∈ columns, column.resultName = Address.resultName ⟨name, deepPlace⟩ := by
  induction hreached generalizing columns with
  | @here place elements =>
      obtain ⟨column, hcolumn, hknows⟩ := gathered_column hgathers hname
      have hplainName : PlainName name := hplain.columns name hname
      obtain ⟨hhas, -, -, hresult⟩ :=
        hfaithful.columns ⟨name, place⟩ column hplace hplainName hknows
      exact ⟨hhas, column, hcolumn, hresult⟩
  | @through place deepPlace elements deepElements child link path hchild hlink hjoined hreached
      ih =>
      have hchildPlace : Path.Plain (place.child child.step) := hplace.child (hplain.step hchild)
      obtain ⟨known, hknows, hbelow⟩ := gathered_child hgathers hchild
      have hknown := hfaithful.links _ _ known hplace hchildPlace hknows
      obtain rfl := Schema.linkBetween_unique hlink hknown
      obtain ⟨below, hgathersBelow, hsubset⟩ := hbelow hjoined
      obtain ⟨hhas, column, hcolumn, hresult⟩ :=
        ih (hplain.child hchild) hchildPlace hgathersBelow hname
      exact ⟨hhas, column, hsubset column hcolumn, hresult⟩

/-! ## Output names -/

/-- The names of a statement's columns, for a bucket at the root: each names the site of a
column, and what is asked for and the keys of what is read later are among them. -/
structure Names (schema : Schema) (root : Step) (elements : List Element)
    (names : List String) : Prop where
  sites : ∀ name ∈ names, ∃ column path deepPlace deepElements,
    Reached schema [root] elements path deepPlace deepElements ∧
      schema.hasColumn deepPlace.tableName column = true ∧ name = Segments.join (path ++ [column])
  requested : ∀ path deepPlace deepElements column,
    Reached schema [root] elements path deepPlace deepElements →
      .item (.column column) ∈ deepElements →
        schema.hasColumn deepPlace.tableName column = true ∧
          Segments.join (path ++ [column]) ∈ names
  keys : ∀ path deepPlace deepElements child link,
    Reached schema [root] elements path deepPlace deepElements → .bucket child ∈ deepElements →
      schema.linkBetween deepPlace (deepPlace.child child.step) = .ok (some link) →
        link.isDeferred = true →
          schema.hasColumn deepPlace.tableName link.source.name = true ∧
            Segments.join (path ++ [link.source.name]) ∈ names

/-- Every column of a prepared bucket is named by the site of a column of the bucket. -/
theorem Prepares.sites (hschema : schema.Plain) {root : Step} (hroot : Path.Plain [root])
    {bucket : Bucket} (hplain : bucket.Plain) {others : List Element} {found : Findings}
    (hprepares : Prepares schema [root] [] bucket.columns {} bucket.elements others found)
    (hfaithful : Memo.Faithful schema memo) {columns : List ResolvedColumn}
    (hgathers : Plan.Gathers memo [root] others columns) :
    ∀ name ∈ columns.map ResolvedColumn.resultName, ∃ column path deepPlace deepElements,
      Reached schema [root] bucket.elements path deepPlace deepElements ∧
        schema.hasColumn deepPlace.tableName column = true ∧
          name = Segments.join (path ++ [column]) := by
  intro name hname
  have hothers : PlainElements others := hprepares.plainElements hschema (.of_bucket hplain)
  obtain ⟨column, hcolumn, rfl⟩ := List.mem_map.mp hname
  obtain ⟨name, path, deepPlace, deepOthers, hreached, -, hhas, hresult⟩ :=
    exists_reached hothers hroot hfaithful hgathers hcolumn
  obtain ⟨deepElements, hbefore⟩ := hprepares.reached_before hreached
  refine ⟨name, path, deepPlace, deepElements, hbefore, hhas, ?_⟩
  rw [hresult, hreached.resultName hothers name]

/-- The columns of a prepared bucket name the sites of the bucket. -/
theorem Prepares.names (hschema : schema.Plain) {root : Step} (hroot : root.Plain)
    {bucket : Bucket} (hplain : bucket.Plain) (hseparate : Separate schema bucket)
    {others : List Element} {found : Findings}
    (hprepares : Prepares schema [root] [] bucket.columns {} bucket.elements others found)
    (hfaithful : Memo.Faithful schema memo) {columns : List ResolvedColumn}
    (hgathers : Plan.Gathers memo [root] others columns) :
    Names schema root bucket.elements (columns.map ResolvedColumn.resultName) := by
  have helements : PlainElements bucket.elements := .of_bucket hplain
  have hothers : PlainElements others := hprepares.plainElements hschema helements
  have hplace : Path.Plain [root] :=
    ⟨List.cons_ne_nil _ _, fun step hstep => List.mem_singleton.mp hstep ▸ hroot⟩
  have hfresh : ∀ key ∈ Findings.added {}, ¬ ([] : List String) <+: key.path := nofun
  have hasked : ∀ {path deepPlace deepOthers column},
      Reached schema [root] others path deepPlace deepOthers →
        .item (.column column) ∈ deepOthers →
          schema.hasColumn deepPlace.tableName column = true ∧
            Segments.join (path ++ [column]) ∈ columns.map ResolvedColumn.resultName := by
    intro path deepPlace deepOthers column hreached hcolumn
    obtain ⟨hhas, gathered, hgathered, hresult⟩ :=
      exists_gathered hothers hplace hfaithful hgathers hreached hcolumn
    refine ⟨hhas, ?_⟩
    rw [← hreached.resultName hothers column, ← hresult]
    exact List.mem_map_of_mem hgathered
  constructor
  · exact hprepares.sites hschema hplace hplain hfaithful hgathers
  · intro path deepPlace deepElements column hreached hcolumn
    obtain ⟨deepOthers, hdeep, hcolumns, -⟩ :=
      hprepares.reached_prepared hseparate hfresh hreached
    exact hasked hdeep (hcolumns column hcolumn)
  · intro path deepPlace deepElements child link hreached hchild hlink hdeferred
    obtain ⟨deepOthers, hdeep, -, hkeys⟩ :=
      hprepares.reached_prepared hseparate hfresh hreached
    exact hasked hdeep (hkeys child link hchild hlink hdeferred)

end Session

end TreeQuery
