import Mathlib
import TreeQuery.Catalog.Resolution
import TreeQuery.Proofs.Runs

/-!
# Answers of a schema

A question is answered from memory when its key is there, and anew otherwise.
What a question may add to the memory is said once, by `Memo.Learns`; everything
that holds of the memory during a run is an invariant of this relation.
-/

namespace TreeQuery.Catalog

variable {schema : Schema} {asked : Path → Prop} {memo middle after : Memo}

namespace Schema

/-- The answer for a table: the remembered one, else the schema's. -/
def tableAnswer? (schema : Schema) (memo : Memo) (path : Path) : Option Sql.TableRef :=
  (List.lookup path.key memo.tables).or (schema.tableRef? path)

/-- The answer for a column. -/
def columnAnswer? (schema : Schema) (memo : Memo) (address : Address) : Option ResolvedColumn :=
  (List.lookup address.key memo.columns).or
    (if schema.hasColumn address.path.tableName address.name then
      (schema.tableAnswer? memo address.path).map fun table =>
        ⟨table, address.name, address.resultName⟩
    else none)

/-- The answer for a link, unless the schema cannot decide it. -/
def linkAnswer? (schema : Schema) (memo : Memo) (source target : Path) : Option Link :=
  (List.lookup (source.key, target.key) memo.links).or
    ((schema.linkBetween source target).toOption.join)

end Schema

theorem lookup_cons_eq_some {κ ν : Type} [BEq κ] [LawfulBEq κ] {key sought : κ} {value found : ν}
    {entries : List (κ × ν)}
    (hfound : List.lookup sought ((key, value) :: entries) = some found) :
    sought = key ∧ value = found ∨ List.lookup sought entries = some found := by
  rw [List.lookup] at hfound
  split at hfound
  · next hsame => exact .inl ⟨beq_iff_eq.mp hsame, Option.some.inj hfound⟩
  · exact .inr hfound

/-- The column of an address is remembered. -/
def Memo.KnowsColumn (memo : Memo) (address : Address) (column : ResolvedColumn) : Prop :=
  List.lookup address.key memo.columns = some column

/-- The link between two paths is remembered. -/
def Memo.KnowsLink (memo : Memo) (source target : Path) (link : Link) : Prop :=
  List.lookup (source.key, target.key) memo.links = some link

/-- One new answer is remembered.  The question was about a path of the kind that is
asked about, and its key was not there before. -/
inductive Memo.Learns (schema : Schema) (asked : Path → Prop) : Memo → Memo → Prop
  | table {memo : Memo} {path : Path} {table : Sql.TableRef} (hasked : asked path)
      (hmissing : List.lookup path.key memo.tables = none)
      (htable : schema.tableRef? path = some table) :
      Learns schema asked memo { memo with tables := (path.key, table) :: memo.tables }
  | column {memo : Memo} {address : Address} {table : Sql.TableRef}
      (hasked : asked address.path)
      (hmissing : List.lookup address.key memo.columns = none)
      (hcolumn : schema.hasColumn address.path.tableName address.name = true)
      (htable : schema.tableAnswer? memo address.path = some table) :
      Learns schema asked memo
        { memo with
          columns := (address.key, ⟨table, address.name, address.resultName⟩) :: memo.columns }
  | link {memo : Memo} {source target : Path} {link : Link} (hsource : asked source)
      (htarget : asked target)
      (hmissing : List.lookup (source.key, target.key) memo.links = none)
      (hlink : schema.linkBetween source target = .ok (some link)) :
      Learns schema asked memo
        { memo with links := ((source.key, target.key), link) :: memo.links }

/-- Any number of new answers are remembered. -/
def Memo.Grows (schema : Schema) (asked : Path → Prop) : Memo → Memo → Prop :=
  Relation.ReflTransGen (Memo.Learns schema asked)

theorem Memo.Grows.refl : Memo.Grows schema asked memo memo :=
  Relation.ReflTransGen.refl

theorem Memo.Grows.trans (hfirst : Memo.Grows schema asked memo middle)
    (hsecond : Memo.Grows schema asked middle after) : Memo.Grows schema asked memo after :=
  Relation.ReflTransGen.trans hfirst hsecond

theorem Memo.Grows.mono {other : Path → Prop} (hkind : ∀ path, asked path → other path)
    (hgrows : Memo.Grows schema asked memo after) : Memo.Grows schema other memo after := by
  refine Relation.ReflTransGen.mono ?_ _ _ hgrows
  intro memo after hlearns
  cases hlearns with
  | table hasked hmissing htable => exact .table (hkind _ hasked) hmissing htable
  | column hasked hmissing hcolumn htable =>
      exact .column (hkind _ hasked) hmissing hcolumn htable
  | link hsource htarget hmissing hlink =>
      exact .link (hkind _ hsource) (hkind _ htarget) hmissing hlink

theorem Memo.Learns.grows (hlearns : Memo.Learns schema asked memo after) :
    Memo.Grows schema asked memo after :=
  Relation.ReflTransGen.single hlearns

/-- What is remembered stays remembered. -/
theorem Memo.Grows.knowsColumn {address : Address} {column : ResolvedColumn}
    (hgrows : Memo.Grows schema asked memo after) (hknown : memo.KnowsColumn address column) :
    after.KnowsColumn address column := by
  induction hgrows with
  | refl => exact hknown
  | tail _ hlearns ih =>
      cases hlearns with
      | @column other table hasked hmissing hcolumn htable =>
          have hother : (address.key == other.key) = false := by
            apply beq_eq_false_iff_ne.mpr
            intro hkey
            rw [← hkey] at hmissing
            exact absurd (ih.symm.trans hmissing) (by simp)
          rw [Memo.KnowsColumn, List.lookup, hother]
          exact ih
      | table hasked hmissing htable => exact ih
      | link hsource htarget hmissing hlink => exact ih

theorem Memo.Grows.knowsLink {source target : Path} {link : Link}
    (hgrows : Memo.Grows schema asked memo after) (hknown : memo.KnowsLink source target link) :
    after.KnowsLink source target link := by
  induction hgrows with
  | refl => exact hknown
  | tail _ hlearns ih =>
      cases hlearns with
      | @link first second other hsource htarget hmissing hlink =>
          have hother : ((source.key, target.key) == (first.key, second.key)) = false := by
            apply beq_eq_false_iff_ne.mpr
            intro hkey
            rw [← hkey] at hmissing
            exact absurd (ih.symm.trans hmissing) (by simp)
          rw [Memo.KnowsLink, List.lookup, hother]
          exact ih
      | table hasked hmissing htable => exact ih
      | column hasked hmissing hcolumn htable => exact ih

namespace Schema

/-- Asking for a table gives its answer, which stays the same. -/
theorem table?_run (schema : Schema) {path : Path} (hasked : asked path) (memo : Memo) :
    ∃ after, Id.run ((schema.table? path).run memo) = (schema.tableAnswer? memo path, after) ∧
      Memo.Grows schema asked memo after ∧
      schema.tableAnswer? after path = schema.tableAnswer? memo path ∧
      after.columns = memo.columns := by
  cases hknown : List.lookup path.key memo.tables with
  | some known =>
      refine ⟨memo, ?_, .refl, rfl, rfl⟩
      simp [table?, tableAnswer?, hknown]
  | none =>
      cases htable : schema.tableRef? path with
      | none =>
          refine ⟨memo, ?_, .refl, rfl, rfl⟩
          simp [table?, tableAnswer?, hknown, htable]
      | some table =>
          refine ⟨_, ?_, (Memo.Learns.table hasked hknown htable).grows, ?_, rfl⟩
          · simp [table?, tableAnswer?, hknown, htable]
          · simp [tableAnswer?, hknown, htable]

/-- Asking for a column gives its answer. -/
theorem column?_run (schema : Schema) {address : Address} (hasked : asked address.path)
    (memo : Memo) :
    ∃ after, Id.run ((schema.column? address).run memo) =
        (schema.columnAnswer? memo address, after) ∧ Memo.Grows schema asked memo after ∧
      ∀ column, schema.columnAnswer? memo address = some column →
        after.KnowsColumn address column := by
  cases hknown : List.lookup address.key memo.columns with
  | some known =>
      refine ⟨memo, ?_, .refl, fun column hcolumn => ?_⟩
      · simp [column?, columnAnswer?, hknown]
      · simpa [columnAnswer?, Memo.KnowsColumn, hknown] using hcolumn
  | none =>
      cases hcolumn : schema.hasColumn address.path.tableName address.name with
      | false =>
          refine ⟨memo, ?_, .refl, ?_⟩
          · simp [column?, columnAnswer?, hknown, hcolumn]
          · simp [columnAnswer?, hknown, hcolumn]
      | true =>
          obtain ⟨middle, hrun, hgrows, hsame, hcolumns⟩ := schema.table?_run hasked memo
          cases htable : schema.tableAnswer? memo address.path with
          | none =>
              refine ⟨middle, ?_, hgrows, ?_⟩
              · simp [column?, columnAnswer?, hknown, hcolumn, hrun, htable]
              · simp [columnAnswer?, hknown, hcolumn, htable]
          | some table =>
              refine ⟨_, ?_, hgrows.trans
                (Memo.Learns.column hasked (hcolumns ▸ hknown) hcolumn (hsame.trans htable)).grows,
                ?_⟩
              · simp [column?, columnAnswer?, hknown, hcolumn, hrun, htable]
              · simp [columnAnswer?, hknown, hcolumn, htable, Memo.KnowsColumn]

theorem table_succeeds {path : Path} {table : Sql.TableRef} (hasked : asked path)
    (hrun : Succeeds (schema.table path) memo table after) :
    schema.tableAnswer? memo path = some table ∧ Memo.Grows schema asked memo after := by
  obtain ⟨grown, htable, hgrows, -, -⟩ := schema.table?_run hasked memo
  rw [Schema.table, Succeeds.bind_iff] at hrun
  obtain ⟨answer, middle, hanswer, hrest⟩ := hrun
  rw [Succeeds.lift_iff, htable, Prod.mk.injEq] at hanswer
  obtain ⟨rfl, rfl⟩ := hanswer
  cases hknown : schema.tableAnswer? memo path with
  | none =>
      rw [hknown] at hrest
      exact absurd hrest Succeeds.not_throw
  | some known =>
      rw [hknown] at hrest
      obtain ⟨rfl, rfl⟩ := Succeeds.pure_iff.mp hrest
      exact ⟨rfl, hgrows⟩

theorem column_succeeds {address : Address} {column : ResolvedColumn}
    (hasked : asked address.path) (hrun : Succeeds (schema.column address) memo column after) :
    schema.columnAnswer? memo address = some column ∧ Memo.Grows schema asked memo after ∧
      after.KnowsColumn address column := by
  obtain ⟨grown, hcolumn, hgrows, hknows⟩ := schema.column?_run hasked memo
  rw [Schema.column, Succeeds.bind_iff] at hrun
  obtain ⟨answer, middle, hanswer, hrest⟩ := hrun
  rw [Succeeds.lift_iff, hcolumn, Prod.mk.injEq] at hanswer
  obtain ⟨rfl, rfl⟩ := hanswer
  cases hknown : schema.columnAnswer? memo address with
  | none =>
      rw [hknown] at hrest
      dsimp only at hrest
      split at hrest <;> exact absurd hrest Succeeds.not_throw
  | some known =>
      rw [hknown] at hrest
      obtain ⟨rfl, rfl⟩ := Succeeds.pure_iff.mp hrest
      exact ⟨rfl, hgrows, hknows known hknown⟩

theorem columnAt_succeeds {path : Path} {name : String} {column : ResolvedColumn}
    (hrun : Succeeds (schema.column ⟨name, path⟩) memo column after) :
    schema.columnAnswer? memo ⟨name, path⟩ = some column ∧
      Memo.Grows schema (· = path) memo after ∧ after.KnowsColumn ⟨name, path⟩ column :=
  column_succeeds rfl hrun

/-- A column that has an answer is found. -/
theorem column_gives {path : Path} {name : String} {column : ResolvedColumn}
    (hanswer : schema.columnAnswer? memo ⟨name, path⟩ = some column) :
    ∃ after, Succeeds (schema.column ⟨name, path⟩) memo column after := by
  obtain ⟨after, hrun, -, -⟩ := @column?_run (· = path) schema ⟨name, path⟩ rfl memo
  rw [hanswer] at hrun
  exact ⟨after, Succeeds.bind_iff.mpr
    ⟨some column, after, Succeeds.lift_iff.mpr hrun, Succeeds.pure_iff.mpr ⟨rfl, rfl⟩⟩⟩

theorem link_succeeds {source target : Path} {link : Link} (hsource : asked source)
    (htarget : asked target) (hrun : Succeeds (schema.link source target) memo link after) :
    schema.linkAnswer? memo source target = some link ∧ Memo.Grows schema asked memo after ∧
      after.KnowsLink source target link := by
  rw [Schema.link, Succeeds.bind_iff] at hrun
  obtain ⟨answer, middle, hanswer, hrest⟩ := hrun
  cases answer with
  | none => exact absurd hrest Succeeds.not_throw
  | some known =>
      obtain ⟨rfl, rfl⟩ := Succeeds.pure_iff.mp hrest
      rw [link?, Succeeds.bind_iff] at hanswer
      obtain ⟨state, start, hget, hanswer⟩ := hanswer
      obtain ⟨rfl, rfl⟩ := Succeeds.get_iff.mp hget
      cases hmemo : List.lookup (source.key, target.key) memo.links with
      | some remembered =>
          rw [hmemo] at hanswer
          obtain ⟨hsame, rfl⟩ := Succeeds.pure_iff.mp hanswer
          obtain rfl := Option.some.inj hsame
          exact ⟨by simp [linkAnswer?, hmemo], .refl, hmemo⟩
      | none =>
          rw [hmemo] at hanswer
          rcases hlink : schema.linkBetween source target with problem | _ | found
          · rw [hlink] at hanswer
            exact absurd hanswer Succeeds.not_throw
          · rw [hlink] at hanswer
            simpa using (Succeeds.pure_iff.mp hanswer).1
          · rw [hlink] at hanswer
            obtain ⟨_, changed, hmodify, hpure⟩ := Succeeds.bind_iff.mp hanswer
            obtain ⟨hsame, rfl⟩ := Succeeds.pure_iff.mp hpure
            obtain rfl := Option.some.inj hsame
            obtain rfl := Succeeds.modify_iff.mp hmodify
            exact ⟨by simp [linkAnswer?, hmemo, hlink, Except.toOption],
              (Memo.Learns.link hsource htarget hmemo hlink).grows, by simp [Memo.KnowsLink]⟩

/-- Columns of one path have different keys. -/
theorem Address.key_inj {path : Path} {name other : String}
    (hkey : (Address.mk name path).key = (Address.mk other path).key) : name = other := by
  simp only [Address.key] at hkey
  split at hkey
  · exact hkey
  · exact String.append_right_inj .. |>.mp hkey

/-- A new answer about a path changes no other answer about it. -/
theorem answers_learns {path : Path} (hlearns : Memo.Learns schema (· = path) memo after) :
    schema.tableAnswer? after path = schema.tableAnswer? memo path ∧
      ∀ name, schema.columnAnswer? after ⟨name, path⟩ =
        schema.columnAnswer? memo ⟨name, path⟩ := by
  cases hlearns with
  | @table asked table hasked hmissing htable =>
      subst asked
      have hsame : schema.tableAnswer? { memo with tables := (path.key, table) :: memo.tables }
          path = schema.tableAnswer? memo path := by
        simp [tableAnswer?, hmissing, htable]
      refine ⟨hsame, fun name => ?_⟩
      rw [columnAnswer?, columnAnswer?, hsame]
  | @column address table hasked hmissing hcolumn htable =>
      obtain ⟨known, asked⟩ := address
      change asked = path at hasked
      subst asked
      refine ⟨rfl, fun name => ?_⟩
      by_cases hname : name = known
      · subst hname
        simp [columnAnswer?, hmissing,
          show schema.hasColumn path.tableName name = true from hcolumn,
          show schema.tableAnswer? memo path = some table from htable]
      · have hkey : ((Address.mk name path).key == (Address.mk known path).key) = false :=
          beq_eq_false_iff_ne.mpr fun hsame => hname (Address.key_inj hsame)
        simp only [columnAnswer?, tableAnswer?, List.lookup, hkey]
  | link hsource htarget hmissing hlink => exact ⟨rfl, fun _ => rfl⟩

/-- Questions about one path change no answer for its columns. -/
theorem columnAnswer?_stable {path : Path} (hgrows : Memo.Grows schema (· = path) memo after)
    (name : String) :
    schema.columnAnswer? after ⟨name, path⟩ = schema.columnAnswer? memo ⟨name, path⟩ := by
  induction hgrows with
  | refl => rfl
  | tail _ hlearns ih => rw [(answers_learns hlearns).2, ih]

/-- After questions about its path, a column is found again. -/
theorem column_again {path : Path} {name : String} {column : ResolvedColumn}
    (hgrows : Memo.Grows schema (· = path) memo middle)
    (hanswer : schema.columnAnswer? memo ⟨name, path⟩ = some column) :
    ∃ after, Succeeds (schema.column ⟨name, path⟩) middle column after := by
  apply column_gives
  rw [columnAnswer?_stable hgrows, hanswer]

end Schema

end TreeQuery.Catalog
