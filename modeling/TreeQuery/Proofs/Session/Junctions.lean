import TreeQuery.Proofs.Session.Attachment

/-!
# Many-to-many attachment

Many-to-many children are read through their junction: one row of the junction stands for
one child of the parent whose key it has.  The child is the target that came back with the
row; it is there exactly when the target's key is.
-/

namespace TreeQuery

theorem Segments.join_singleton (name : String) : Segments.join [name] = name := by
  apply String.toList_inj.mp
  rw [Segments.toList_join, List.map_singleton, List.intercalate_singleton]

namespace Session

open Catalog (Link Memo Schema)

/-- Whether the row of a junction has the key of a text and came back with a target. -/
def hasTarget (keyColumn field targetColumn text : String) (row : Record) : Bool :=
  hasKey keyColumn text row &&
    (row.get? (Segments.join [field, targetColumn])).any fun key => !key.isNull

/-- An entry shows the target in the row of a junction.  Every column asked for has its
value, null included; the target's key is there only if it was asked for. -/
def ShowsTarget (child : Bucket) (targetColumn : String) (row : Record) (entry : Json) : Prop :=
  ∃ target, entry =
      .object (withoutKey (child.columns.contains targetColumn) targetColumn target) ∧
    ∀ column, column ∈ child.columns ∨ column = targetColumn → ∃ value,
      row.get? (Segments.join [child.outputName, column]) = some value ∧
        target.get? column = some value

variable {reader : Reader} {bucket child : Bucket} {start finish : State}
  {path : List String} {place : Path} {elements : List Element}

/-- Rows that are kept and values that are picked from their records belong together, when a
row is kept exactly if its record has a value. -/
theorem forall₂_filter_filterMap {related : Record → Record → Prop} {keep : Record → Bool}
    {pick : Record → Option Json} {rows records : List Record}
    (hpick : ∀ row record, related row record →
      (keep row = true ↔ (pick record).isSome = true))
    (hrelated : List.Forall₂ related rows records) :
    List.Forall₂ (fun row value => ∃ record, related row record ∧ pick record = some value)
      (rows.filter keep) (records.filterMap pick) := by
  induction hrelated with
  | nil => exact .nil
  | @cons row record rows records hhead hrest ih =>
      have hsame := hpick row record hhead
      cases hvalue : pick record with
      | none =>
          have hdropped : keep row ≠ true := by
            rw [ne_eq, hsame, hvalue]
            exact Bool.false_ne_true
          rw [List.filter_cons_of_neg hdropped, List.filterMap_cons_none hvalue]
          exact ih
      | some value =>
          have hkept : keep row = true := by
            rw [hsame, hvalue]
            rfl
          rw [List.filter_cons_of_pos hkept, List.filterMap_cons_some hvalue]
          exact .cons ⟨record, hhead, hvalue⟩ ih

/-! ## The rows of a junction -/

/-- The target of a junction's bucket is joined to it. -/
theorem junctionBucket_reached {schema : Schema} {interim keyColumn : String}
    {third fourth : Address} {field : String}
    (hlink : schema.linkBetween [{ name := interim }] (Path.child [{ name := interim }]
      (junctionTarget child field third.name fourth.name).step) =
        .ok (some (.manyToOne ⟨third.name, [{ name := interim }]⟩
          ⟨fourth.name, Path.child [{ name := interim }]
            (junctionTarget child field third.name fourth.name).step⟩))) (keys : List Json) :
    Reached schema
      (junctionBucket child field interim keyColumn third.name fourth.name keys).rootPath
      (junctionBucket child field interim keyColumn third.name fourth.name keys).elements
      [field] (Path.child [{ name := interim }]
        (junctionTarget child field third.name fourth.name).step)
      (junctionTarget child field third.name fourth.name).elements := by
  have hmem : .bucket (junctionTarget child field third.name fourth.name) ∈
      (junctionBucket child field interim keyColumn third.name fourth.name keys).elements := by
    rw [junctionBucket_elements]
    simp
  exact .through hmem hlink rfl .here

/-- The record of a junction's row has the key of the row, and the target that came back
with it. -/
theorem showsRow_junction {schema : Schema} {interim keyColumn targetColumn field : String}
    {targetKey : String} {keys : List Json} {targetPlace : Path} {row record : Record}
    (hreached : Reached schema
      (junctionBucket child field interim keyColumn targetKey targetColumn keys).rootPath
      (junctionBucket child field interim keyColumn targetKey targetColumn keys).elements
      [field] targetPlace (junctionTarget child field targetKey targetColumn).elements)
    (hshows : ShowsRow schema
      (junctionBucket child field interim keyColumn targetKey targetColumn keys) row record) :
    record.get? keyColumn = row.get? keyColumn ∧
      ∀ column, column ∈ child.columns ∨ column = targetColumn → ∃ value,
        row.get? (Segments.join [field, column]) = some value ∧
          Shows record [field] column value := by
  constructor
  · obtain ⟨value, hvalue, hshown⟩ :=
      hshows [] _ _ keyColumn .here (mem_junctionBucket.mpr rfl)
    rw [List.nil_append, Segments.join_singleton] at hvalue
    rw [hvalue]
    rcases hshown with hat | ⟨-, hgone⟩
    · obtain ⟨found, hfound, hsame⟩ := Option.bind_eq_some_iff.mp hat
      exact hfound.trans hsame
    · cases hgone
  · intro column hcolumn
    exact hshows [field] _ _ column hreached (mem_junctionTarget.mpr hcolumn)

/-- What a record has a target is, and that its key came back. -/
theorem targetOf?_eq_some {requested : Bool} {field targetColumn : String} {record : Record}
    {entry : Json} :
    targetOf? requested field targetColumn record = some entry ↔
      ∃ target key, record.get? field = some (.object target) ∧
        Record.get? target targetColumn = some key ∧ key.isNull = false ∧
          entry = .object (withoutKey requested targetColumn target) := by
  constructor
  · intro hentry
    obtain ⟨found, hfound, hentry⟩ := Option.bind_eq_some_iff.mp hentry
    obtain ⟨target, htarget, hentry⟩ := Option.bind_eq_some_iff.mp hentry
    obtain ⟨key, hkey, hentry⟩ := Option.bind_eq_some_iff.mp hentry
    cases found with
    | object fields =>
        obtain rfl := Option.some.inj htarget
        split at hentry
        · cases hentry
        · next hnull =>
            obtain rfl := Option.some.inj hentry
            exact ⟨fields, key, hfound, hkey, Bool.eq_false_of_not_eq_true hnull, rfl⟩
    | _ => cases htarget
  · rintro ⟨target, key, hfound, hkey, hnull, rfl⟩
    simp [targetOf?, hfound, Json.fields?, hkey, hnull]

theorem at?_of_object {record target : Record} {field column : String}
    (htarget : record.get? field = some (.object target)) :
    (Json.object record).at? ([field] ++ [column]) = target.get? column := by
  have hobject : Record.objectAt? [field] record = some target := by
    rw [Record.objectAt?, htarget]
    rfl
  exact Record.at?_of_objectAt? hobject

/-- A row has a target exactly when its record has one. -/
theorem hasTarget_iff {requested : Bool} {keyColumn field targetColumn : String} {text : String}
    {row record : Record} (hkey : record.get? keyColumn = row.get? keyColumn)
    (htarget : ∃ value, row.get? (Segments.join [field, targetColumn]) = some value ∧
      Shows record [field] targetColumn value) :
    hasTarget keyColumn field targetColumn text row = true ↔
      (if hasKey keyColumn text record = true then targetOf? requested field targetColumn record
        else none).isSome = true := by
  obtain ⟨value, hvalue, hshown⟩ := htarget
  have hsameKey : hasKey keyColumn text row = hasKey keyColumn text record := by
    rw [hasKey, hasKey, hkey]
  rw [hasTarget, hsameKey, hvalue, Bool.and_eq_true, Option.any_some, Bool.not_eq_true',
    Option.isSome_iff_exists]
  constructor
  · rintro ⟨hhas, hnull⟩
    rw [if_pos hhas]
    rcases hshown with hat | ⟨hisNull, -⟩
    · obtain ⟨found, hfound, hcolumn⟩ := Option.bind_eq_some_iff.mp hat
      cases found with
      | object target =>
          have hvalueAt : Record.get? target targetColumn = some value :=
            (at?_of_object hfound).symm.trans hat
          exact ⟨_, targetOf?_eq_some.mpr ⟨target, value, hfound, hvalueAt, hnull, rfl⟩⟩
      | _ => cases hcolumn
    · rw [hnull] at hisNull
      cases hisNull
  · rintro ⟨entry, hentry⟩
    split at hentry
    · next hhas =>
        obtain ⟨target, key, hfound, hcolumn, hnull, -⟩ := targetOf?_eq_some.mp hentry
        refine ⟨hhas, ?_⟩
        rcases hshown with hat | ⟨-, hgone⟩
        · rw [at?_of_object hfound, hcolumn] at hat
          obtain rfl := Option.some.inj hat
          exact hnull
        · rw [Record.objectAt?, hfound] at hgone
          cases hgone
    · cases hentry

/-- The entry of a record shows the target of the record's row. -/
theorem showsTarget {targetColumn : String} {row record : Record} {entry : Json}
    (hcolumns : ∀ column, column ∈ child.columns ∨ column = targetColumn → ∃ value,
      row.get? (Segments.join [child.outputName, column]) = some value ∧
        Shows record [child.outputName] column value)
    (hentry : targetOf? (child.columns.contains targetColumn) child.outputName targetColumn
      record = some entry) : ShowsTarget child targetColumn row entry := by
  obtain ⟨target, key, hfound, -, -, rfl⟩ := targetOf?_eq_some.mp hentry
  refine ⟨target, rfl, fun column hcolumn => ?_⟩
  obtain ⟨value, hvalue, hshown⟩ := hcolumns column hcolumn
  refine ⟨value, hvalue, ?_⟩
  rcases hshown with hat | ⟨-, hgone⟩
  · exact (at?_of_object hfound).symm.trans hat
  · rw [Record.objectAt?, hfound] at hgone
    cases hgone

/-- The entries of a text show the targets of the rows that have it, one for each. -/
theorem showsTarget_entries {schema : Schema} {interim keyColumn targetKey targetColumn : String}
    {keys : List Json} {targetPlace : Path} {answers junctions : List Record}
    (hreached : Reached schema (junctionBucket child child.outputName interim keyColumn targetKey
        targetColumn keys).rootPath
      (junctionBucket child child.outputName interim keyColumn targetKey targetColumn
        keys).elements
      [child.outputName] targetPlace
      (junctionTarget child child.outputName targetKey targetColumn).elements)
    (hshown : List.Forall₂ (ShowsRow schema (junctionBucket child child.outputName interim
      keyColumn targetKey targetColumn keys)) answers junctions) (text : String) :
    List.Forall₂ (ShowsTarget child targetColumn)
      (answers.filter (hasTarget keyColumn child.outputName targetColumn text))
      ((junctions.filter (hasKey keyColumn text)).filterMap
        (targetOf? (child.columns.contains targetColumn) child.outputName targetColumn)) := by
  have hpick : ∀ row record, ShowsRow schema (junctionBucket child child.outputName interim
      keyColumn targetKey targetColumn keys) row record →
        (hasTarget keyColumn child.outputName targetColumn text row = true ↔
          (if hasKey keyColumn text record = true then
            targetOf? (child.columns.contains targetColumn) child.outputName targetColumn record
          else none).isSome = true) := by
    intro row record hrow
    obtain ⟨hkey, hcolumns⟩ := showsRow_junction hreached hrow
    exact hasTarget_iff hkey (hcolumns targetColumn (.inr rfl))
  rw [List.filterMap_filter]
  refine (forall₂_filter_filterMap hpick hshown).imp fun row entry => ?_
  rintro ⟨record, hrow, hentry⟩
  obtain ⟨-, hcolumns⟩ := showsRow_junction hreached hrow
  split at hentry
  · exact showsTarget hcolumns hentry
  · cases hentry

/-- The bucket of a junction can be read when the parents can, if the junction has no column
of the name under which the target is read. -/
theorem Readable.junction (hreadable : Readable reader bucket)
    (hreached : Reached reader.schema bucket.rootPath bucket.elements path place elements)
    (hchild : .bucket child ∈ elements) {first second third fourth : Address}
    (hlink : reader.schema.linkBetween place (place.child child.step) =
      .ok (some (.manyToMany first second third fourth)))
    (hfield : reader.schema.hasColumn second.path.tableName child.outputName = false)
    (keys : List Json) :
    Readable reader (junctionBucket child child.outputName second.path.tableName second.name
      third.name fourth.name keys) := by
  obtain ⟨-, -, -, -, hdeep⟩ := hreached.exists_steps (.of_bucket hreadable.plain)
  have hplain := hdeep.children child hchild
  have hseparate := hreached.separate_child hreadable.separate hchild
  have hjunction := throughJunction_of_link hreadable.schema hlink
  refine ⟨hreadable.extensions, hreadable.schema, hreadable.answers,
    hjunction.plain hplain keys, junctionBucket_separate hseparate hfield _ _ _ keys,
    fun hasTotal => ?_⟩
  rw [junctionBucket_hasTotal] at hasTotal
  cases hasTotal

/-- Many-to-many attachment.  Where a row has a key for a nested bucket related many-to-many,
the object at the bucket's path holds one entry for each row of the junction's query that has
this key and came back with a target, in the order of these rows.  Each entry shows the target
of its row, with its key only if that was asked for. -/
theorem read_attaches_targets (hreadable : Readable reader bucket)
    (hfaithful : Memo.Faithful reader.schema start.memo)
    (hreached : Reached reader.schema bucket.rootPath bucket.elements path place elements)
    (hchild : .bucket child ∈ elements) {source interimSource interimTarget target : Address}
    (hlink : reader.schema.linkBetween place (place.child child.step) =
      .ok (some (.manyToMany source interimSource interimTarget target)))
    (hfield : reader.schema.hasColumn interimSource.path.tableName child.outputName = false)
    {view : View} (hrun : Succeeds (reader.read bucket) start view finish) :
    ∃ rows records keys answers junctions entries, view.data = records.map .object ∧
      Answered reader bucket start finish rows records ∧
      KeysOf rows (Segments.join (path ++ [source.name])) keys ∧
      (keys ≠ [] → FetchedWithin reader (junctionBucket child child.outputName
        interimSource.path.tableName interimSource.name interimTarget.name target.name keys)
          start finish answers junctions) ∧
      HoldsByKey (Segments.join (path ++ [source.name])) (path ++ [child.outputName]) entries
        rows records ∧
      ∀ text, entries text = (junctions.filter (hasKey interimSource.name text)).filterMap
          (targetOf? (child.columns.contains target.name) child.outputName target.name) ∧
        List.Forall₂ (ShowsTarget child target.name)
          (answers.filter (hasTarget interimSource.name child.outputName target.name text))
          (entries text) := by
  obtain ⟨fetched, depth, hfetch, hview⟩ := read_succeeds hrun
  obtain ⟨rows, hanswered, -, hattached⟩ := fetch_attaches hreadable hfaithful hfetch
  have hdefers : Defers reader.schema bucket.rootPath [] bucket.elements
      ⟨path, child.outputName, .manyToMany source interimSource interimTarget target, child⟩ :=
    Defers.of_reached hreached hchild hlink rfl
  obtain ⟨hvalues, smaller, attached, middle, later, hbefore, hchildren, hbehind, hholds⟩ :=
    hattached _ hdefers
  have hkeys := KeysOf.of_parentKeys rfl hvalues
  refine ⟨rows, fetched.records, parentKeys (rows.map fun row =>
    Record.unflatten (reader.withoutTotal bucket row)) path source.name, ?_⟩
  by_cases hnone : parentKeys (rows.map fun row =>
      Record.unflatten (reader.withoutTotal bucket row)) path source.name = []
  · -- no parent has a key, and nothing is attached
    obtain ⟨rfl, rfl⟩ := fetchChildren_of_no_keys hnone hchildren
    have hcollapsed : reader.collapses = true → Children.Collapsed [] := fun _ => nofun
    exact ⟨[], [], Children.of [], hview, hanswered, hkeys, fun hsome => absurd hnone hsome,
      hholds hcollapsed, fun text => ⟨rfl, .nil⟩⟩
  · obtain ⟨junctions, hread, rfl⟩ := fetchChildren_manyToMany rfl hnone hchildren
    obtain ⟨answers, hanswers, hcollapsed, -⟩ := fetch_attaches
      (hreadable.junction hreached hchild hlink hfield _) (hbefore.faithful hfaithful) hread
    have hjunction := throughJunction_of_link hreadable.schema hlink
    refine ⟨answers, junctions.records, Children.of _, hview, hanswered, hkeys, fun _ => ?_,
      hholds fun hcollapses => childrenOfJunction_collapsed (hcollapsed hcollapses),
      fun text => ⟨of_childrenOfJunction _ _ _ _ text _, ?_⟩⟩
    · exact ⟨smaller, middle, junctions, later, hbefore, hread, rfl, hanswers, hbehind⟩
    · have hjoined := hjunction.joined child.outputName
      rw [of_childrenOfJunction]
      exact showsTarget_entries (junctionBucket_reached hjoined _) hanswers.shown text

/-! ## Tagged books -/

/-- Books and tags, and the taggings between them. -/
def taggedBooks : Schema where
  tables := [{ name := "book", columns := ["id", "title"] },
    { name := "tag", columns := ["id", "word"] },
    { name := "tagging", columns := ["book_id", "tag_id"] }]
  graph := {
    tables := ["book", "tag", "tagging"]
    foreignKeys := [⟨"tagging", "book_id", "book", "id"⟩, ⟨"tagging", "tag_id", "tag", "id"⟩] }
  junctions := []

/-- The words of tags, without their keys. -/
def tagWords : Bucket where
  name := "tag"
  elements := [.item (.column "word")]

/-- Books together with their tags. -/
def booksWithTags : Bucket where
  name := "book"
  elements := [.item (.column "title"), .bucket tagWords]

/-- Two books.  The first has a tag twice, a tag without a word, and a tagging whose tag is
missing; the second has no tags. -/
def tagAnswers : List String → List Record
  | ["title", "id"] =>
      [[("id", .int 1), ("title", .string "Emma")], [("id", .int 2), ("title", .string "Sanditon")]]
  | ["book_id", "tag__word", "tag__id"] =>
      [[("book_id", .int 1), ("tag__id", .int 7), ("tag__word", .string "comedy")],
        [("book_id", .int 1), ("tag__id", .null), ("tag__word", .null)],
        [("book_id", .int 1), ("tag__id", .int 8), ("tag__word", .null)],
        [("book_id", .int 1), ("tag__id", .int 7), ("tag__word", .string "comedy")]]
  | _ => []

theorem tagAnswers_rowOf (names : List String) : ∀ row ∈ tagAnswers names, RowOf names row := by
  intro row hrow
  unfold tagAnswers at hrow
  split at hrow
  · simp only [List.mem_cons, List.not_mem_nil, or_false] at hrow
    rcases hrow with rfl | rfl <;>
      exact ⟨by decide, fun name => List.Perm.mem_iff (by decide), by decide⟩
  · simp only [List.mem_cons, List.not_mem_nil, or_false] at hrow
    rcases hrow with rfl | rfl | rfl | rfl <;>
      exact ⟨by decide, fun name => List.Perm.mem_iff (by decide), by decide⟩
  · cases hrow

/-- A reader of these answers. -/
def tagReader : Reader where
  schema := taggedBooks
  connection := .ofNames tagAnswers

theorem readable_booksWithTags : Readable tagReader booksWithTags where
  extensions := rfl
  schema := by decide
  answers := Connection.answersByName_ofNames tagAnswers_rowOf
  plain := by decide
  separate := by decide
  total := fun hasTotal => nomatch hasTotal

/-- The first book holds three tags, the second one none. -/
theorem read_attaches_targets_booksWithTags :
    ∃ view finish, Succeeds (tagReader.read booksWithTags) {} view finish ∧
      view.data.map (fun record => match record.at? ["tag"] with
        | some (.array tags) => tags.length
        | _ => 0) = [3, 0] ∧
      ∃ rows records keys answers junctions entries, view.data = records.map .object ∧
        Answered tagReader booksWithTags {} finish rows records ∧ KeysOf rows "id" keys ∧
        (keys ≠ [] → FetchedWithin tagReader
          (junctionBucket tagWords "tag" "tagging" "book_id" "tag_id" "id" keys) {} finish answers
            junctions) ∧
        HoldsByKey "id" ["tag"] entries rows records ∧
        ∀ text, entries text = (junctions.filter (hasKey "book_id" text)).filterMap
            (targetOf? false "tag" "id") ∧
          List.Forall₂ (ShowsTarget tagWords "id")
            (answers.filter (hasTarget "book_id" "tag" "id" text)) (entries text) := by
  obtain ⟨view, finish, hrun, hseen⟩ := Succeeds.of_toOption
    (show (Id.run ((tagReader.read booksWithTags).run.run {})).1.toOption.map
      (fun view => view.data.map fun record => match record.at? ["tag"] with
        | some (.array tags) => tags.length
        | _ => 0) = some [3, 0] by decide +kernel)
  have hfaithful : Memo.Faithful tagReader.schema (State.memo {}) := .empty taggedBooks
  exact ⟨view, finish, hrun, hseen, read_attaches_targets readable_booksWithTags hfaithful .here
    (List.mem_cons_of_mem _ List.mem_cons_self) rfl rfl hrun⟩

end Session

end TreeQuery
