import TreeQuery.Proofs.Catalog.Answers
import TreeQuery.Proofs.Path.Plain
import TreeQuery.Proofs.Plan.Gathering

/-!
# Faithful memories

A memory is faithful when what it holds for plain paths is what the schema itself
answers.  The empty memory is faithful, and since plain paths are told apart by their
keys, it stays so while only plain paths are asked about.
-/

namespace TreeQuery.Catalog

namespace Schema

/-- All names of a schema are plain. -/
structure Plain (schema : Schema) : Prop where
  columns : ∀ table ∈ schema.tables, ∀ column ∈ table.columns, PlainName column
  nodes : ∀ table ∈ schema.graph.tables, PlainName table
  keys : ∀ key ∈ schema.graph.foreignKeys, PlainName key.column ∧ PlainName key.targetColumn
  junctions : ∀ junction ∈ schema.junctions, PlainName junction.interim

instance (schema : Schema) : Decidable schema.Plain :=
  decidable_of_iff ((∀ table ∈ schema.tables, ∀ column ∈ table.columns, PlainName column) ∧
      (∀ table ∈ schema.graph.tables, PlainName table) ∧
      (∀ key ∈ schema.graph.foreignKeys, PlainName key.column ∧ PlainName key.targetColumn) ∧
      ∀ junction ∈ schema.junctions, PlainName junction.interim)
    ⟨fun ⟨hcolumns, hnodes, hkeys, hjunctions⟩ => ⟨hcolumns, hnodes, hkeys, hjunctions⟩,
      fun hplain => ⟨hplain.columns, hplain.nodes, hplain.keys, hplain.junctions⟩⟩

variable {schema : Schema}

theorem Plain.hasColumn (hplain : schema.Plain) {table column : String}
    (hcolumn : schema.hasColumn table column = true) : PlainName column := by
  rw [Schema.hasColumn] at hcolumn
  split at hcolumn
  · cases hcolumn
  · next definition hdefinition =>
      apply hplain.columns definition (List.mem_of_find?_eq_some hdefinition)
      exact List.contains_iff_mem.mp hcolumn

theorem mem_outgoing {table : String} {key : ForeignKey} :
    key ∈ schema.graph.outgoing table ↔ key ∈ schema.graph.foreignKeys ∧ key.table = table := by
  rw [KeyGraph.outgoing, List.mem_filter, beq_iff_eq]

/-- How a link comes about: by a key of the source's table, by a key of the target's
table, or by two keys of a junction table.  In the latter cases a key leads to the source's
table. -/
inductive Relates (schema : Schema) (source target : Path) : Link → Prop
  | manyToOne {key : ForeignKey} {step : Step} (htarget : target.getLast? = some step)
      (hkey : (schema.graph.outgoing source.tableName).find? (·.leadsTo step) = some key) :
      Relates schema source target (.manyToOne ⟨key.column, source⟩ ⟨key.targetColumn, target⟩)
  | oneToMany {key : ForeignKey} {table : String}
      (hkey : key ∈ schema.graph.outgoing table) (hleads : key.targetTable = source.tableName) :
      Relates schema source target (.oneToMany ⟨key.targetColumn, source⟩ ⟨key.column, target⟩)
  | manyToMany {interim : String} {step : Step} {toSource toTarget : ForeignKey}
      (hinterim : interim ∈ schema.graph.tables ∨
        interim ∈ schema.junctions.map Junction.interim)
      (htarget : target.getLast? = some step)
      (hsource : toSource ∈ schema.graph.outgoing interim)
      (hkey : (schema.graph.outgoing interim).find? (·.leadsTo step) = some toTarget)
      (hleads : toSource.targetTable = source.tableName) :
      Relates schema source target (junctionLink source target interim toSource toTarget)

theorem targetTable_of_leadsTo {key : ForeignKey} {step : Step}
    (hleads : key.leadsTo step = true) : key.targetTable = step.name :=
  beq_iff_eq.mp (Bool.and_eq_true_iff.mp hleads).1

theorem junctionKeys?_eq_some {interim : String} {sourceStep targetStep : Step}
    {toSource toTarget : ForeignKey}
    (hkeys : schema.junctionKeys? interim sourceStep targetStep = some (toSource, toTarget)) :
    toSource ∈ schema.graph.outgoing interim ∧
      (schema.graph.outgoing interim).find? (·.leadsTo targetStep) = some toTarget ∧
        toSource.targetTable = sourceStep.name := by
  rw [junctionKeys?] at hkeys
  obtain ⟨target, htarget, hkeys⟩ := Option.bind_eq_some_iff.mp hkeys
  obtain ⟨source, hsource, hkeys⟩ := Option.bind_eq_some_iff.mp hkeys
  obtain ⟨rfl, rfl⟩ := Prod.mk.inj (Option.some.inj hkeys)
  have hfound := List.find?_some hsource
  have htable : source.targetTable = sourceStep.bare.name :=
    targetTable_of_leadsTo (Bool.and_eq_true_iff.mp hfound).1
  exact ⟨List.mem_of_find?_eq_some hsource, htarget, htable⟩

theorem manyToMany?_ok {source target : Path} {sourceStep targetStep : Step} {link : Link}
    (hsource : source.getLast? = some sourceStep) (htarget : target.getLast? = some targetStep)
    (hlink : schema.manyToMany? source target sourceStep targetStep = .ok (some link)) :
    Relates schema source target link := by
  have htable : source.tableName = sourceStep.name := by rw [Path.tableName, hsource]
  rw [manyToMany?] at hlink
  split at hlink
  · next interim hchosen =>
      split at hlink
      · next toSource toTarget hkeys =>
          obtain rfl := Option.some.inj (Except.ok.inj hlink)
          rw [chosenJunction?] at hchosen
          obtain ⟨junction, hjunction, rfl⟩ := Option.map_eq_some_iff.mp hchosen
          have hmem : junction ∈ schema.junctions :=
            List.mem_reverse.mp (List.mem_of_find?_eq_some hjunction)
          obtain ⟨hmember, hkey, hleads⟩ := junctionKeys?_eq_some hkeys
          exact .manyToMany (.inr (List.mem_map_of_mem hmem)) htarget hmember hkey
            (hleads.trans htable.symm)
      · cases hlink
  · split at hlink
    · cases hlink
    · next interim toSource toTarget hcandidates =>
        obtain rfl := Option.some.inj (Except.ok.inj hlink)
        have hmem : (interim, toSource, toTarget) ∈
            schema.junctionCandidates sourceStep targetStep := by
          rw [hcandidates]
          exact List.mem_singleton_self _
        rw [junctionCandidates] at hmem
        obtain ⟨table, hcandidate, hkeys⟩ := List.mem_filterMap.mp hmem
        split at hkeys
        · cases hkeys
        · obtain ⟨keys, hkeys, hsame⟩ := Option.map_eq_some_iff.mp hkeys
          obtain ⟨rfl, rfl⟩ := Prod.mk.inj hsame
          obtain ⟨hmember, hkey, hleads⟩ := junctionKeys?_eq_some hkeys
          exact .manyToMany (.inl hcandidate) htarget hmember hkey (hleads.trans htable.symm)
    · cases hlink

theorem linkBetween_ok {source target : Path} {link : Link}
    (hlink : schema.linkBetween source target = .ok (some link)) :
    Relates schema source target link := by
  rw [linkBetween] at hlink
  split at hlink
  · next sourceStep targetStep hsource htarget =>
      split at hlink
      · next direct hdirect =>
          obtain rfl := Option.some.inj (Except.ok.inj hlink)
          rw [manyToOne?] at hdirect
          obtain ⟨key, hkey, rfl⟩ := Option.map_eq_some_iff.mp hdirect
          exact .manyToOne htarget hkey
      · split at hlink
        · next direct hdirect =>
            obtain rfl := Option.some.inj (Except.ok.inj hlink)
            rw [oneToMany?] at hdirect
            obtain ⟨key, hkey, rfl⟩ := Option.map_eq_some_iff.mp hdirect
            have hfound := List.find?_some hkey
            apply Relates.oneToMany (List.mem_of_find?_eq_some hkey)
            rw [targetTable_of_leadsTo hfound, Path.tableName, hsource]
        · exact manyToMany?_ok hsource htarget hlink
  · cases hlink

/-- A link equates columns of the two paths it was asked for. -/
theorem Relates.paths {source target : Path} {link : Link}
    (hrelates : Relates schema source target link) :
    link.source.path = source ∧ link.target.path = target := by
  cases hrelates <;> exact ⟨rfl, rfl⟩

theorem Plain.outgoing (hplain : schema.Plain) {table : String} {key : ForeignKey}
    (hkey : key ∈ schema.graph.outgoing table) :
    PlainName key.column ∧ PlainName key.targetColumn :=
  hplain.keys key (mem_outgoing.mp hkey).1

/-- The columns that a link equates are columns of foreign keys. -/
theorem Relates.names {kind : String → Prop} (hkeys : ∀ key ∈ schema.graph.foreignKeys,
    kind key.column ∧ kind key.targetColumn) {source target : Path} {link : Link}
    (hrelates : Relates schema source target link) :
    kind link.source.name ∧ kind link.target.name := by
  have houtgoing : ∀ {table : String} {key : ForeignKey}, key ∈ schema.graph.outgoing table →
      kind key.column ∧ kind key.targetColumn :=
    fun hkey => hkeys _ (mem_outgoing.mp hkey).1
  cases hrelates with
  | manyToOne htarget hkey => exact houtgoing (List.mem_of_find?_eq_some hkey)
  | oneToMany hkey hleads => exact (houtgoing hkey).symm
  | manyToMany hinterim htarget hsource hkey hleads =>
      exact ⟨(houtgoing hsource).2, (houtgoing (List.mem_of_find?_eq_some hkey)).2⟩

/-- The columns that a link equates have plain names. -/
theorem Relates.plainNames (hplain : schema.Plain) {source target : Path} {link : Link}
    (hrelates : Relates schema source target link) :
    PlainName link.source.name ∧ PlainName link.target.name :=
  hrelates.names hplain.keys

end Schema

/-- What is remembered for plain paths is what the schema answers. -/
structure Memo.Faithful (schema : Schema) (memo : Memo) : Prop where
  tables : ∀ path table, Path.Plain path → List.lookup path.key memo.tables = some table →
    schema.tableRef? path = some table
  columns : ∀ address column, Path.Plain address.path → PlainName address.name →
    memo.KnowsColumn address column →
      schema.hasColumn address.path.tableName address.name = true ∧
        schema.tableRef? address.path = some column.table ∧ column.name = address.name ∧
          column.resultName = address.resultName
  links : ∀ source target link, Path.Plain source → Path.Plain target →
    memo.KnowsLink source target link → schema.linkBetween source target = .ok (some link)

variable {schema : Schema} {memo after : Memo}

theorem Memo.Faithful.empty (schema : Schema) : Memo.Faithful schema {} :=
  ⟨nofun, nofun, nofun⟩

theorem Memo.Faithful.tableAnswer? (hfaithful : Memo.Faithful schema memo) {path : Path}
    (hpath : Path.Plain path) : schema.tableAnswer? memo path = schema.tableRef? path := by
  rw [Schema.tableAnswer?]
  cases hknown : List.lookup path.key memo.tables with
  | none => rfl
  | some table =>
      rw [hfaithful.tables path table hpath hknown]
      rfl

theorem Memo.Faithful.linkAnswer? (hfaithful : Memo.Faithful schema memo)
    {source target : Path} (hsource : Path.Plain source) (htarget : Path.Plain target)
    {link : Link} (hanswer : schema.linkAnswer? memo source target = some link) :
    schema.linkBetween source target = .ok (some link) := by
  rw [Schema.linkAnswer?] at hanswer
  cases hknown : List.lookup (source.key, target.key) memo.links with
  | some known =>
      rw [hknown] at hanswer
      obtain rfl := Option.some.inj hanswer
      exact hfaithful.links source target known hsource htarget hknown
  | none =>
      rw [hknown] at hanswer
      rcases hlink : schema.linkBetween source target with problem | _ | found
      · rw [hlink] at hanswer
        cases hanswer
      · rw [hlink] at hanswer
        cases hanswer
      · rw [hlink] at hanswer
        exact congrArg (fun link => Except.ok link) hanswer

/-- A new answer about plain paths keeps a memory faithful. -/
theorem Memo.Faithful.learns (hschema : schema.Plain) (hfaithful : Memo.Faithful schema memo)
    (hlearns : Memo.Learns schema Path.Plain memo after) : Memo.Faithful schema after := by
  cases hlearns with
  | table hasked hmissing htable =>
      refine ⟨fun path known hpath hknown => ?_, hfaithful.columns, hfaithful.links⟩
      rcases lookup_cons_eq_some hknown with ⟨hkey, rfl⟩ | hknown
      · exact hpath.key_inj hasked hkey ▸ htable
      · exact hfaithful.tables path known hpath hknown
  | @column address table hasked hmissing hcolumn htable =>
      refine ⟨hfaithful.tables, fun other known hpath hname hknown => ?_, hfaithful.links⟩
      rcases lookup_cons_eq_some hknown with ⟨hkey, rfl⟩ | hknown
      · obtain rfl := Address.key_inj_of_plain hpath hasked hname (hschema.hasColumn hcolumn) hkey
        exact ⟨hcolumn, (hfaithful.tableAnswer? hpath).symm.trans htable, rfl, rfl⟩
      · exact hfaithful.columns other known hpath hname hknown
  | @link first second link hfirst hsecond hmissing hlink =>
      refine ⟨hfaithful.tables, hfaithful.columns,
        fun source target known hsource htarget hknown => ?_⟩
      rcases lookup_cons_eq_some hknown with ⟨hkey, rfl⟩ | hknown
      · obtain ⟨hsourceKey, htargetKey⟩ := Prod.mk.inj hkey
        obtain rfl := hsource.key_inj hfirst hsourceKey
        obtain rfl := htarget.key_inj hsecond htargetKey
        exact hlink
      · exact hfaithful.links source target known hsource htarget hknown

/-- A faithful memory stays faithful while plain paths are asked about. -/
theorem Memo.Faithful.grows (hschema : schema.Plain) (hfaithful : Memo.Faithful schema memo)
    (hgrows : Memo.Grows schema Path.Plain memo after) : Memo.Faithful schema after := by
  induction hgrows with
  | refl => exact hfaithful
  | tail _ hlearns ih => exact ih.learns hschema hlearns

/-- The links of a faithful memory lead between the plain paths they were asked for. -/
theorem Memo.Faithful.closed (hschema : schema.Plain) (hfaithful : Memo.Faithful schema memo) :
    Memo.Closed schema Path.Plain memo := by
  intro middle hgrows source target link hsource htarget hanswer
  have hlink := (hfaithful.grows hschema hgrows).linkAnswer? hsource htarget hanswer
  obtain ⟨hfirst, hsecond⟩ := (Schema.linkBetween_ok hlink).paths
  exact ⟨hfirst ▸ hsource, hsecond ▸ htarget⟩

end TreeQuery.Catalog
