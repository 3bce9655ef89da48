import TreeQuery.Proofs.Session.Fetching

/-!
# One-to-many attachment

Every parent with a key holds exactly the children of this key, in the order in which they
came back, wherever the parent stands in its record.  The children are those read for the
keys of all parents, by a bucket of their own.
-/

namespace TreeQuery.Session

open Catalog (Link Memo Schema)

/-- The keys of the rows under a name: every row has a value there, and those that are not
null are the keys, up to their text. -/
structure KeysOf (rows : List Record) (name : String) (keys : List Json) : Prop where
  named : ∀ row ∈ rows, ∃ value, row.get? name = some value
  sound : ∀ key ∈ keys, key.isNull = false ∧ ∃ row ∈ rows, row.get? name = some key
  complete : ∀ row ∈ rows, ∀ value, row.get? name = some value → value.isNull = false →
    ∃ key ∈ keys, key.compact = value.compact

/-- A bucket is fetched in the course of a run, and its records show the rows with which its
query was answered. -/
def FetchedWithin (reader : Reader) (bucket : Bucket) (start finish : State)
    (rows records : List Record) : Prop :=
  ∃ depth middle fetched later, Follows reader.schema start middle ∧
    Succeeds (reader.fetch depth bucket) middle fetched later ∧ fetched.records = records ∧
      Answered reader bucket middle later rows records ∧ Follows reader.schema later finish

variable {reader : Reader} {bucket child : Bucket} {start finish : State} {fetched : Fetched}
  {depth : Nat} {path : List String} {place : Path} {elements : List Element}

theorem KeysOf.of_parentKeys {rows records : List Record} {nest : Record → Record}
    {column name : String} (hrecords : records = rows.map nest)
    (hrows : ∀ row ∈ rows, ∃ value, row.get? name = some value ∧
      (Json.object (nest row)).at? (path ++ [column]) = some value) :
    KeysOf rows name (parentKeys records path column) := by
  subst hrecords
  constructor
  · intro row hrow
    obtain ⟨value, hvalue, -⟩ := hrows row hrow
    exact ⟨value, hvalue⟩
  · intro key hkey
    obtain ⟨record, hrecord, hat, hnull⟩ := at?_of_mem_parentKeys hkey
    obtain ⟨row, hrow, rfl⟩ := List.mem_map.mp hrecord
    obtain ⟨value, hvalue, hsame⟩ := hrows row hrow
    obtain rfl := Option.some.inj (hsame.symm.trans hat)
    exact ⟨hnull, row, hrow, hvalue⟩
  · intro row hrow value hvalue hnull
    obtain ⟨found, hfound, hat⟩ := hrows row hrow
    obtain rfl := Option.some.inj (hfound.symm.trans hvalue)
    exact exists_parentKey (List.mem_map_of_mem hrow) hat hnull

/-- Reading is fetching, and it starts from a faithful memory again. -/
theorem read_succeeds {view : View} (hrun : Succeeds (reader.read bucket) start view finish) :
    ∃ fetched depth, Succeeds (reader.fetch depth bucket) start fetched finish ∧
      view.data = fetched.records.map .object := by
  rw [Reader.read] at hrun
  obtain ⟨fetched, middle, hfetch, hrun⟩ := Succeeds.bind_iff.mp hrun
  obtain ⟨rfl, rfl⟩ := Succeeds.pure_iff.mp hrun
  exact ⟨fetched, _, hfetch, rfl⟩

/-- A bucket of one-to-many children can be read when their parents can. -/
theorem Readable.children (hreadable : Readable reader bucket)
    (hreached : Reached reader.schema bucket.rootPath bucket.elements path place elements)
    (hchild : .bucket child ∈ elements) {column : String} (hcolumn : PlainName column)
    (keys : List Json) : Readable reader (childrenBucket child column keys) := by
  obtain ⟨-, -, -, -, hdeep⟩ := hreached.exists_steps (.of_bucket hreadable.plain)
  have hseparate := hreached.separate_child hreadable.separate hchild
  refine ⟨hreadable.extensions, hreadable.schema, hreadable.answers,
    childrenBucket_plain (hdeep.children child hchild) hcolumn keys,
    childrenBucket_separate hseparate column keys, fun hasTotal => ?_⟩
  rw [childrenBucket_hasTotal] at hasTotal
  cases hasTotal

/-- One-to-many attachment.  Each record of a view comes from one row of the bucket's query,
in order.  Where a row has a key for a nested bucket related one-to-many, the object at the
bucket's path holds the children read for it that have this key, in the order in which they
came back, and without the key column unless it was asked for. -/
theorem read_attaches_children (hreadable : Readable reader bucket)
    (hfaithful : Memo.Faithful reader.schema start.memo)
    (hreached : Reached reader.schema bucket.rootPath bucket.elements path place elements)
    (hchild : .bucket child ∈ elements) {source target : Address}
    (hlink : reader.schema.linkBetween place (place.child child.step) =
      .ok (some (.oneToMany source target)))
    {view : View} (hrun : Succeeds (reader.read bucket) start view finish) :
    ∃ rows records keys answers children, view.data = records.map .object ∧
      Answered reader bucket start finish rows records ∧
      KeysOf rows (Segments.join (path ++ [source.name])) keys ∧
      (keys ≠ [] → FetchedWithin reader (childrenBucket child target.name keys) start finish
        answers children) ∧
      HoldsByKey (Segments.join (path ++ [source.name])) (path ++ [child.outputName])
        (fun text => (children.filter (hasKey target.name text)).map fun record =>
          .object (withoutKey (child.columns.contains target.name) target.name record))
        rows records := by
  obtain ⟨fetched, depth, hfetch, hview⟩ := read_succeeds hrun
  obtain ⟨rows, hanswered, -, hattached⟩ := fetch_attaches hreadable hfaithful hfetch
  have hdefers : Defers reader.schema bucket.rootPath [] bucket.elements
      ⟨path, child.outputName, .oneToMany source target, child⟩ :=
    Defers.of_reached hreached hchild hlink rfl
  obtain ⟨hvalues, smaller, attached, middle, later, hbefore, hchildren, hbehind, hholds⟩ :=
    hattached _ hdefers
  have hkeys := KeysOf.of_parentKeys rfl hvalues
  refine ⟨rows, fetched.records, parentKeys (rows.map fun row =>
    Record.unflatten (reader.withoutTotal bucket row)) path source.name, ?_⟩
  by_cases hnone : parentKeys (rows.map fun row =>
      Record.unflatten (reader.withoutTotal bucket row)) path source.name = []
  · -- no parent has a key, and nothing is attached
    obtain ⟨rfl, rfl⟩ := fetchChildren_of_no_keys hnone hchildren
    have hcollapsed : reader.collapses = true → Children.Collapsed [] := fun _ => nofun
    exact ⟨[], [], hview, hanswered, hkeys, fun hsome => absurd hnone hsome, hholds hcollapsed⟩
  · obtain ⟨children, hread, rfl⟩ := fetchChildren_oneToMany rfl hnone hchildren
    have hcolumn := ((Schema.linkBetween_ok hlink).plainNames hreadable.schema).2
    obtain ⟨answers, hchildAnswered, hcollapsed, -⟩ := fetch_attaches
      (hreadable.children hreached hchild hcolumn _) (hbefore.faithful hfaithful) hread
    refine ⟨answers, children.records, hview, hanswered, hkeys, fun _ => ?_, ?_⟩
    · exact ⟨smaller, middle, children, later, hbefore, hread, rfl, hchildAnswered, hbehind⟩
    · have hheld := hholds fun hcollapses => childrenOfRows_collapsed (hcollapsed hcollapses)
      have hitems := funext fun text => of_childrenOfRows
        (child.columns.contains target.name) target.name text children.records
      rw [hitems] at hheld
      exact hheld

/-! ## Chapters of reviewed books -/

/-- Books, their reviews, and their chapters. -/
def chapteredBooks : Schema where
  tables := [{ name := "book", columns := ["id", "title"] },
    { name := "review", columns := ["id", "body", "book_id"] },
    { name := "chapter", columns := ["id", "title", "book_id"] }]
  graph := {
    tables := ["book", "review", "chapter"]
    foreignKeys := [⟨"review", "book_id", "book", "id"⟩, ⟨"chapter", "book_id", "book", "id"⟩] }
  junctions := []

/-- The reviews of a book, without their key. -/
def bookReviews : Bucket where
  name := "review"
  elements := [.item (.column "body")]

/-- Chapters together with their books and the reviews of these. -/
def reviewedChapters : Bucket where
  name := "chapter"
  elements := [.item (.column "title"),
    .bucket { name := "book", elements := [.item (.column "title"), .bucket bookReviews] }]

/-- Two chapters of one book and one without a book; two reviews of the book and one of
another. -/
def chapterAnswers : List String → List Record
  | ["title", "book__title", "book__id"] =>
      [[("book__id", .int 1), ("book__title", .string "Emma"), ("title", .string "Highbury")],
        [("book__id", .null), ("book__title", .null), ("title", .string "Fragment")],
        [("book__id", .int 1), ("book__title", .string "Emma"), ("title", .string "Box Hill")]]
  | ["body", "book_id"] =>
      [[("body", .string "Witty"), ("book_id", .int 1)],
        [("body", .string "Dull"), ("book_id", .int 2)],
        [("body", .string "Sharp"), ("book_id", .int 1)]]
  | _ => []

theorem chapterAnswers_rowOf (names : List String) :
    ∀ row ∈ chapterAnswers names, RowOf names row := by
  intro row hrow
  unfold chapterAnswers at hrow
  split at hrow
  · simp only [List.mem_cons, List.not_mem_nil, or_false] at hrow
    rcases hrow with rfl | rfl | rfl <;>
      exact ⟨by decide, fun name => List.Perm.mem_iff (by decide), by decide⟩
  · simp only [List.mem_cons, List.not_mem_nil, or_false] at hrow
    rcases hrow with rfl | rfl | rfl <;>
      exact ⟨by decide, fun name => List.Perm.mem_iff (by decide), by decide⟩
  · cases hrow

/-- A reader of these answers. -/
def chapterReader : Reader where
  schema := chapteredBooks
  connection := .ofNames chapterAnswers

theorem readable_reviewedChapters : Readable chapterReader reviewedChapters where
  extensions := rfl
  schema := by decide
  answers := Connection.answersByName_ofNames chapterAnswers_rowOf
  plain := by decide
  separate := by decide
  total := fun hasTotal => nomatch hasTotal

/-- The chapters of the book hold its reviews, the one without a book holds none. -/
theorem read_attaches_children_reviewedChapters :
    ∃ view finish, Succeeds (chapterReader.read reviewedChapters) {} view finish ∧
      view.data.map (fun record => (record.at? ["book", "review"]).isSome) =
        [true, false, true] ∧
      ∃ rows records keys answers children, view.data = records.map .object ∧
        Answered chapterReader reviewedChapters {} finish rows records ∧
        KeysOf rows "book__id" keys ∧
        (keys ≠ [] → FetchedWithin chapterReader (childrenBucket bookReviews "book_id" keys) {}
          finish answers children) ∧
        HoldsByKey "book__id" ["book", "review"]
          (fun text => (children.filter (hasKey "book_id" text)).map fun record =>
            .object (withoutKey false "book_id" record)) rows records := by
  obtain ⟨view, finish, hrun, hseen⟩ := Succeeds.of_toOption
    (show (Id.run ((chapterReader.read reviewedChapters).run.run {})).1.toOption.map
      (fun view => view.data.map fun record => (record.at? ["book", "review"]).isSome) =
        some [true, false, true] by decide +kernel)
  have hreached : Reached chapterReader.schema reviewedChapters.rootPath
      reviewedChapters.elements ["book"] [{ name := "chapter" }, { name := "book" }]
        [.item (.column "title"), .bucket bookReviews] :=
    .through (List.mem_cons_of_mem _ List.mem_cons_self) rfl rfl .here
  have hfaithful : Memo.Faithful chapterReader.schema (State.memo {}) := .empty chapteredBooks
  exact ⟨view, finish, hrun, hseen, read_attaches_children readable_reviewedChapters hfaithful
    hreached (List.mem_cons_of_mem _ List.mem_cons_self) rfl hrun⟩

end TreeQuery.Session
