import TreeQuery.Proofs.Catalog.Answers
import TreeQuery.Proofs.Path.Plain

/-!
# Remembering is transparent

A schema answers from memory what it has answered before, by the keys of the paths it was
asked about.  Keys that can be read back tell paths apart, so that what is remembered
under a key is what the schema would answer anew, and no sequence of questions can be
told from the same questions put to a schema without memory.
-/

namespace TreeQuery.Catalog

/-- A question to a schema: for the table of a path, for the column of an address, or for
the link between two paths. -/
inductive Question where
  | table (path : Path)
  | column (address : Address)
  | link (source target : Path)

/-- What a schema answers.  A table and a column may be absent; a link may also be
refused. -/
inductive Answer where
  | table (found : Option Sql.TableRef)
  | column (found : Option ResolvedColumn)
  | link (found : Except SchemaError (Option Link))
  deriving DecidableEq

/-- The keys of what is asked about can be read back. -/
def Question.Keyed : Question → Prop
  | table path => path.Keyed
  | column address => address.Keyed
  | link source target => source.Keyed ∧ target.Keyed

instance (question : Question) : Decidable question.Keyed :=
  match question with
  | .table path => inferInstanceAs (Decidable path.Keyed)
  | .column address => inferInstanceAs (Decidable address.Keyed)
  | .link source target => inferInstanceAs (Decidable (source.Keyed ∧ target.Keyed))

namespace Schema

/-- Puts a question to a schema with memory. -/
def ask (schema : Schema) : Question → StateM Memo Answer
  | .table path => Answer.table <$> schema.table? path
  | .column address => Answer.column <$> schema.column? address
  | .link source target => Answer.link <$> (schema.link? source target).run

/-- The column of an address, looked up without memory. -/
def columnRef? (schema : Schema) (address : Address) : Option ResolvedColumn :=
  if schema.hasColumn address.path.tableName address.name then
    (schema.tableRef? address.path).map fun table => ⟨table, address.name, address.resultName⟩
  else none

/-- The answer to a question without memory. -/
def answer (schema : Schema) : Question → Answer
  | .table path => .table (schema.tableRef? path)
  | .column address => .column (schema.columnRef? address)
  | .link source target => .link (schema.linkBetween source target)

end Schema

/-- What is remembered under a key that can be read back is what the schema answers
without memory. -/
structure Memo.Exact (schema : Schema) (memo : Memo) : Prop where
  tables : ∀ path table, path.Keyed → List.lookup path.key memo.tables = some table →
    schema.tableRef? path = some table
  columns : ∀ address column, address.Keyed → memo.KnowsColumn address column →
    schema.columnRef? address = some column
  links : ∀ source target link, source.Keyed → target.Keyed →
    memo.KnowsLink source target link → schema.linkBetween source target = .ok (some link)

variable {schema : Schema} {memo after : Memo}

theorem Memo.Exact.empty (schema : Schema) : Memo.Exact schema {} :=
  ⟨nofun, nofun, nofun⟩

theorem Memo.Exact.learnsTable (hexact : Memo.Exact schema memo) {path : Path}
    (hpath : path.Keyed) {table : Sql.TableRef} (htable : schema.tableRef? path = some table) :
    Memo.Exact schema { memo with tables := (path.key, table) :: memo.tables } where
  tables other known hother hknown := by
    rcases lookup_cons_eq_some hknown with ⟨hkey, rfl⟩ | hknown
    · rw [hother.key_inj hpath hkey]
      exact htable
    · exact hexact.tables other known hother hknown
  columns := hexact.columns
  links := hexact.links

theorem Memo.Exact.learnsColumn (hexact : Memo.Exact schema memo) {address : Address}
    (haddress : address.Keyed) {column : ResolvedColumn}
    (hcolumn : schema.columnRef? address = some column) :
    Memo.Exact schema { memo with columns := (address.key, column) :: memo.columns } where
  tables := hexact.tables
  columns other known hother hknown := by
    rcases lookup_cons_eq_some hknown with ⟨hkey, rfl⟩ | hknown
    · rw [hother.key_inj haddress hkey]
      exact hcolumn
    · exact hexact.columns other known hother hknown
  links := hexact.links

theorem Memo.Exact.learnsLink (hexact : Memo.Exact schema memo) {source target : Path}
    (hsource : source.Keyed) (htarget : target.Keyed) {link : Link}
    (hlink : schema.linkBetween source target = .ok (some link)) :
    Memo.Exact schema
      { memo with links := ((source.key, target.key), link) :: memo.links } where
  tables := hexact.tables
  columns := hexact.columns
  links first second known hfirst hsecond hknown := by
    rcases lookup_cons_eq_some hknown with ⟨hkeys, rfl⟩ | hknown
    · obtain ⟨hkey, hkey'⟩ := Prod.mk.inj hkeys
      rw [hfirst.key_inj hsource hkey, hsecond.key_inj htarget hkey']
      exact hlink
    · exact hexact.links first second known hfirst hsecond hknown

namespace Schema

/-- From an exact memory a step gives an answer and leaves an exact memory. -/
def Answers {α : Type} (schema : Schema) (step : StateM Memo α) (answer : α) : Prop :=
  ∀ memo, Memo.Exact schema memo →
    ∃ after, Id.run (step.run memo) = (answer, after) ∧ Memo.Exact schema after

theorem Answers.map {α β : Type} {step : StateM Memo α} {answer : α} (change : α → β)
    (hstep : schema.Answers step answer) : schema.Answers (change <$> step) (change answer) := by
  intro memo hexact
  obtain ⟨after, hrun, hafter⟩ := hstep memo hexact
  refine ⟨after, ?_, hafter⟩
  rw [StateT.run_map, Id.run_map, hrun]

theorem answers_table? {path : Path} (hpath : path.Keyed) :
    schema.Answers (schema.table? path) (schema.tableRef? path) := by
  intro memo hexact
  cases hknown : List.lookup path.key memo.tables with
  | some known =>
      refine ⟨memo, ?_, hexact⟩
      simp [table?, hknown, hexact.tables path known hpath hknown]
  | none =>
      cases htable : schema.tableRef? path with
      | none => exact ⟨memo, by simp [table?, hknown, htable], hexact⟩
      | some table =>
          exact ⟨_, by simp [table?, hknown, htable], hexact.learnsTable hpath htable⟩

theorem answers_column? {address : Address} (haddress : address.Keyed) :
    schema.Answers (schema.column? address) (schema.columnRef? address) := by
  intro memo hexact
  cases hknown : List.lookup address.key memo.columns with
  | some known =>
      refine ⟨memo, ?_, hexact⟩
      simp [column?, hknown, hexact.columns address known haddress hknown]
  | none =>
      cases hlisted : schema.hasColumn address.path.tableName address.name with
      | false => exact ⟨memo, by simp [column?, columnRef?, hknown, hlisted], hexact⟩
      | true =>
          obtain ⟨middle, hrun, hmiddle⟩ := answers_table? haddress.path memo hexact
          cases htable : schema.tableRef? address.path with
          | none =>
              refine ⟨middle, ?_, hmiddle⟩
              simp [column?, columnRef?, hknown, hlisted, hrun, htable]
          | some table =>
              have hcolumn : schema.columnRef? address =
                  some ⟨table, address.name, address.resultName⟩ := by
                simp [columnRef?, hlisted, htable]
              refine ⟨_, ?_, hmiddle.learnsColumn haddress hcolumn⟩
              simp [column?, hcolumn, hknown, hlisted, hrun, htable]

theorem answers_link? {source target : Path} (hsource : source.Keyed) (htarget : target.Keyed) :
    schema.Answers (schema.link? source target).run (schema.linkBetween source target) := by
  intro memo hexact
  have hget : Id.run ((get : Lookup SchemaError Memo).run.run memo) = (.ok memo, memo) := rfl
  have hmodify (change : Memo → Memo) :
      Id.run ((modify change : Lookup SchemaError PUnit).run.run memo) = (.ok (), change memo) :=
    rfl
  rw [link?, run_bind, hget]
  dsimp only
  cases hknown : List.lookup (source.key, target.key) memo.links with
  | some known =>
      exact ⟨memo, by simp [hexact.links source target known hsource htarget hknown], hexact⟩
  | none =>
      rcases hlink : schema.linkBetween source target with problem | _ | link
      · exact ⟨memo, by simp, hexact⟩
      · exact ⟨memo, by simp, hexact⟩
      · refine ⟨_, ?_, hexact.learnsLink hsource htarget hlink⟩
        rw [run_bind, hmodify]
        simp

/-- One question is answered as without memory, and what is remembered stays exact. -/
theorem answers_ask {question : Question} (hkeyed : question.Keyed) :
    schema.Answers (schema.ask question) (schema.answer question) := by
  cases question with
  | table path => exact (answers_table? hkeyed).map Answer.table
  | column address => exact (answers_column? hkeyed).map Answer.column
  | link source target => exact (answers_link? hkeyed.1 hkeyed.2).map Answer.link

/-- What is done with an answer is done with that of the schema, from an exact memory. -/
theorem Answers.succeeds {α β ε : Type} {step : StateM Memo α} {answer : α}
    {next : α → Lookup ε β} {value : β} (hstep : schema.Answers step answer)
    (hexact : Memo.Exact schema memo)
    (hrun : Succeeds (liftM step >>= next) memo value after) :
    ∃ middle, Memo.Exact schema middle ∧ Succeeds (next answer) middle value after := by
  obtain ⟨found, middle, hfound, hnext⟩ := Succeeds.bind_iff.mp hrun
  obtain ⟨known, hknown, hmiddle⟩ := hstep memo hexact
  rw [Succeeds.lift_iff, hknown, Prod.mk.injEq] at hfound
  obtain ⟨rfl, rfl⟩ := hfound
  exact ⟨known, hmiddle, hnext⟩

theorem table_exact {path : Path} {table : Sql.TableRef} (hpath : path.Keyed)
    (hexact : Memo.Exact schema memo) (hrun : Succeeds (schema.table path) memo table after) :
    schema.tableRef? path = some table ∧ Memo.Exact schema after := by
  obtain ⟨middle, hmiddle, hrest⟩ := (answers_table? hpath).succeeds hexact hrun
  cases htable : schema.tableRef? path with
  | none =>
      rw [htable] at hrest
      exact absurd hrest Succeeds.not_throw
  | some known =>
      rw [htable] at hrest
      obtain ⟨rfl, rfl⟩ := Succeeds.pure_iff.mp hrest
      exact ⟨rfl, hmiddle⟩

/-- A column that is found belongs to the table that the schema has at its path. -/
theorem column_exact {address : Address} {column : ResolvedColumn} (haddress : address.Keyed)
    (hexact : Memo.Exact schema memo)
    (hrun : Succeeds (schema.column address) memo column after) :
    schema.tableRef? address.path = some column.table ∧ column.name = address.name ∧
      Memo.Exact schema after := by
  obtain ⟨middle, hmiddle, hrest⟩ := (answers_column? haddress).succeeds hexact hrun
  cases hcolumn : schema.columnRef? address with
  | none =>
      rw [hcolumn] at hrest
      dsimp only at hrest
      split at hrest <;> exact absurd hrest Succeeds.not_throw
  | some known =>
      rw [hcolumn] at hrest
      obtain ⟨rfl, rfl⟩ := Succeeds.pure_iff.mp hrest
      rw [columnRef?] at hcolumn
      split at hcolumn
      · obtain ⟨table, htable, rfl⟩ := Option.map_eq_some_iff.mp hcolumn
        exact ⟨htable, rfl, hmiddle⟩
      · cases hcolumn

theorem link_exact {source target : Path} {link : Link} (hsource : source.Keyed)
    (htarget : target.Keyed) (hexact : Memo.Exact schema memo)
    (hrun : Succeeds (schema.link source target) memo link after) :
    schema.linkBetween source target = .ok (some link) ∧ Memo.Exact schema after := by
  obtain ⟨found, middle, hfound, hrest⟩ := Succeeds.bind_iff.mp hrun
  obtain ⟨known, hknown, hmiddle⟩ := answers_link? hsource htarget memo hexact
  obtain ⟨hanswer, rfl⟩ := Prod.mk.inj (hknown.symm.trans hfound)
  cases found with
  | none => exact absurd hrest Succeeds.not_throw
  | some known =>
      obtain ⟨rfl, rfl⟩ := Succeeds.pure_iff.mp hrest
      exact ⟨hanswer, hmiddle⟩

/-- Any number of questions are answered as without memory. -/
theorem answers_mapM {questions : List Question}
    (hkeyed : ∀ question ∈ questions, question.Keyed) :
    schema.Answers (questions.mapM schema.ask) (questions.map schema.answer) := by
  induction questions with
  | nil => exact fun memo hexact => ⟨memo, rfl, hexact⟩
  | cons question rest ih =>
      intro memo hexact
      obtain ⟨hquestion, hrest⟩ := List.forall_mem_cons.mp hkeyed
      obtain ⟨middle, hfirst, hmiddle⟩ := answers_ask hquestion memo hexact
      obtain ⟨after, hothers, hafter⟩ := ih hrest middle hmiddle
      refine ⟨after, ?_, hafter⟩
      rw [List.mapM_cons]
      simp [hfirst, hothers]

/-- Questions put to one schema in turn, in any order and with any repetitions, are
answered as each of them is by a schema that remembers nothing. -/
theorem ask_transparent (schema : Schema) (questions : List Question)
    (hkeyed : ∀ question ∈ questions, question.Keyed) :
    Id.run ((questions.mapM schema.ask).run' {}) =
      questions.map fun question => Id.run ((schema.ask question).run' {}) := by
  have hfresh : ∀ question ∈ questions,
      Id.run ((schema.ask question).run' {}) = schema.answer question := by
    intro question hquestion
    obtain ⟨after, hrun, -⟩ := answers_ask (hkeyed question hquestion) {} (.empty schema)
    exact congrArg Prod.fst hrun
  obtain ⟨after, hrun, -⟩ := answers_mapM hkeyed {} (.empty schema)
  calc Id.run ((questions.mapM schema.ask).run' {})
      = questions.map schema.answer := congrArg Prod.fst hrun
    _ = questions.map fun question => Id.run ((schema.ask question).run' {}) :=
        (List.map_congr_left hfresh).symm

end Schema

/-- Books with their authors and, under a qualifier, their editors. -/
def editedBooks : Schema where
  tables := [
    { name := "author", columns := ["id", "name"] },
    { name := "book", columns := ["id", "title", "author_id", "editor_id"] }]
  graph :=
    { tables := ["author", "book"]
      foreignKeys := [⟨"book", "author_id", "author", "id"⟩,
        ⟨"book", "editor_id", "author", "id"⟩] }
  junctions := []

/-- Questions that repeat each other, some of them about nothing in the schema. -/
def editedQuestions : List Question :=
  let book : Path := [{ name := "book" }]
  let editor : Path := book.child { name := "author", qualifier := some "editor" }
  [.column ⟨"name", editor⟩, .table editor, .link book editor, .column ⟨"_name", editor⟩,
    .link editor book, .column ⟨"name", editor⟩, .table [], .link book editor,
    .link book [{ name := "shelf" }], .table [{ name := "shelf" }]]

theorem Schema.ask_transparent_editedBooks :
    (∀ question ∈ editedQuestions, question.Keyed) ∧
      Id.run ((editedQuestions.mapM editedBooks.ask).run' {}) =
        editedQuestions.map fun question => Id.run ((editedBooks.ask question).run' {}) :=
  ⟨by decide, ask_transparent editedBooks editedQuestions (by decide)⟩

end TreeQuery.Catalog
