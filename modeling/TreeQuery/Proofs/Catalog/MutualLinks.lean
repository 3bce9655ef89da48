import TreeQuery.Proofs.Catalog.LinkAnswers

/-!
# Links from both sides

Without qualifiers the key that leads from one table into another is the key by which the other
finds its way back, and a junction bridges two tables from whichever of them one starts.  So the
link back is the link there, seen from its other side, unless each of the two tables owns a key
into the other; and where there is no link, the reason is the same from both sides.
-/

namespace TreeQuery.Catalog

/-- A link seen from its other side. -/
def Link.reversed : Link → Link
  | manyToOne source target => oneToMany target source
  | oneToMany source target => manyToOne target source
  | manyToMany source interimSource interimTarget target =>
      manyToMany target interimTarget interimSource source

/-- The same problem with the two tables in the other order. -/
def SchemaError.reversed : SchemaError → SchemaError
  | ambiguousJunction source target candidates => ambiguousJunction target source candidates
  | invalidJunction source target interim => invalidJunction target source interim
  | noLink source target => noLink target source
  | unknownTable table => unknownTable table
  | unknownColumn table column => unknownColumn table column
  | danglingForeignKey table column target => danglingForeignKey table column target

/-- The answer for a link as the answer for the link back. -/
def reversedAnswer : Except SchemaError (Option Link) → Except SchemaError (Option Link)
  | .ok link => .ok (link.map Link.reversed)
  | .error problem => .error problem.reversed

theorem First.congr {α : Type} {kind other : α → Prop} {entries : List α} {entry : α}
    (hkinds : ∀ entry ∈ entries, kind entry ↔ other entry) (hfirst : First kind entries entry) :
    First other entries entry := by
  have hentry := hfirst.mem
  obtain ⟨before, behind, rfl, hkind, hbefore⟩ := hfirst
  refine ⟨before, behind, rfl, (hkinds entry hentry).mp hkind, fun earlier hearlier => ?_⟩
  rw [← hkinds earlier (List.mem_append_left _ hearlier)]
  exact hbefore earlier hearlier

theorem Junction.joins_comm {junction : Junction} {first second : String} :
    junction.Joins first second ↔ junction.Joins second first :=
  or_comm

namespace Declarations

variable {declarations : Declarations} {schema : Schema} {source target : Path} {interim : String}
  {toSource toTarget key : ForeignKey}

/-- Keys of one table on one column, declared or custom, lead into one table, as they do where no
two of them share a column. -/
def ColumnsLeadOneWay (declarations : Declarations) : Prop :=
  ∀ key ∈ declarations.foreignKeys, ∀ other ∈ declarations.foreignKeys,
    key.table = other.table → key.column = other.column → key.targetTable = other.targetTable

instance (declarations : Declarations) : Decidable declarations.ColumnsLeadOneWay :=
  inferInstanceAs (Decidable (∀ key ∈ declarations.foreignKeys, _))

/-- The innermost steps of two paths have no qualifiers and name different tables. -/
structure Unqualified (source target : Path) : Prop where
  distinct : source.tableName ≠ target.tableName
  source : source.qualifier? = none
  target : target.qualifier? = none

theorem Unqualified.symm (hpaths : Unqualified source target) : Unqualified target source :=
  ⟨hpaths.distinct.symm, hpaths.target, hpaths.source⟩

/-! ## What is determined from both sides -/

theorem leadsBack_iff (hpaths : Unqualified source target) :
    declarations.LeadsBack source target key ↔ declarations.LeadsTo target source key := by
  rw [LeadsBack, LeadsTo, hpaths.target, hpaths.source]

theorem chosen_comm :
    declarations.Chosen source target interim ↔ declarations.Chosen target source interim := by
  have hjoins : (·.Joins source.tableName target.tableName) =
      fun junction : Junction => junction.Joins target.tableName source.tableName :=
    funext fun _ => propext Junction.joins_comm
  rw [Chosen, Chosen, hjoins]

theorem Apart.symm (hpaths : Unqualified source target)
    (hapart : declarations.Apart source target) :
    declarations.Apart target source := by
  constructor
  · intro key hkey
    exact hapart.back key ((leadsBack_iff hpaths).mpr hkey)
  · intro key hkey
    exact hapart.there key ((leadsBack_iff hpaths.symm).mp hkey)

/-- A junction bridges two tables from either side: its keys to them are on different columns, so
neither is passed over for the other's sake. -/
theorem Bridges.symm (hcolumns : declarations.ColumnsLeadOneWay)
    (hpaths : Unqualified source target)
    (hbridges : declarations.Bridges source target interim toSource toTarget) :
    declarations.Bridges target source interim toTarget toSource := by
  have hapart {key other : ForeignKey} (hkey : key ∈ declarations.keysOf interim)
      (hother : other ∈ declarations.keysOf interim) (hsource : key.targetTable = source.tableName)
      (htarget : other.targetTable = target.tableName) : key.column ≠ other.column := by
    obtain ⟨hkey, htable⟩ := mem_keysOf.mp hkey
    obtain ⟨hother, hsame⟩ := mem_keysOf.mp hother
    intro hcolumn
    apply hpaths.distinct
    rw [← hsource, ← htarget]
    exact hcolumns key hkey other hother (htable.trans hsame.symm) hcolumn
  have hinto := hbridges.target.holds.1
  constructor
  · rw [hpaths.source]
    apply hbridges.source.congr
    exact fun key hkey => and_iff_left_of_imp fun hsource =>
      hapart hkey hbridges.target.mem hsource.1 hinto
  · have htarget := hbridges.target
    rw [hpaths.target] at htarget
    apply htarget.congr
    exact fun key hkey => (and_iff_left_of_imp fun hkeyInto =>
      (hapart hbridges.source.mem hkey hbridges.source.holds.1.1 hkeyInto.1).symm).symm

theorem Candidate.symm (hcolumns : declarations.ColumnsLeadOneWay)
    (hpaths : Unqualified source target)
    (hcandidate : declarations.Candidate source target interim) :
    declarations.Candidate target source interim := by
  obtain ⟨hfirst, hsecond, toSource, toTarget, hbridges⟩ := hcandidate
  exact ⟨hsecond, hfirst, toTarget, toSource, hbridges.symm hcolumns hpaths⟩

theorem candidate_comm (hcolumns : declarations.ColumnsLeadOneWay)
    (hpaths : Unqualified source target) :
    declarations.Candidate source target interim ↔ declarations.Candidate target source interim :=
  ⟨Candidate.symm hcolumns hpaths, Candidate.symm hcolumns hpaths.symm⟩

/-- A link that is determined is determined from its other side, unless it goes by a key of the
source's table and the target's table owns a key as well. -/
theorem Determines.reversed (hcolumns : declarations.ColumnsLeadOneWay)
    (hpaths : Unqualified source target) {link : Link}
    (hlink : declarations.Determines source target link)
    (honeWay : link.isDeferred = false → ∀ key, ¬ declarations.LeadsTo target source key) :
    declarations.Determines target source link.reversed := by
  cases hlink with
  | manyToOne hkey =>
      exact .oneToMany (honeWay rfl) ((leadsBack_iff hpaths.symm).mpr hkey)
  | oneToMany hthere hkey => exact .manyToOne ((leadsBack_iff hpaths).mp hkey)
  | chosen hapart hchosen hbridges =>
      exact .chosen (hapart.symm hpaths) (chosen_comm.mp hchosen) (hbridges.symm hcolumns hpaths)
  | only hapart hchosen hcandidate honly hbridges =>
      refine .only (hapart.symm hpaths) (fun other hother => ?_)
        (hcandidate.symm hcolumns hpaths) (fun other hother => ?_)
        (hbridges.symm hcolumns hpaths)
      · exact hchosen other (chosen_comm.mp hother)
      · exact honly other (hother.symm hcolumns hpaths.symm)

/-- The reason why there is no link holds from both sides. -/
theorem Undetermined.reversed (hcolumns : declarations.ColumnsLeadOneWay)
    (hpaths : Unqualified source target) {answer : Except SchemaError (Option Link)}
    (hanswer : declarations.Undetermined source target answer) :
    declarations.Undetermined target source (reversedAnswer answer) := by
  cases hanswer with
  | unrelated hapart hchosen hcandidate =>
      refine .unrelated (hapart.symm hpaths) (fun other hother => ?_) fun other hother => ?_
      · exact hchosen other (chosen_comm.mp hother)
      · exact hcandidate other (hother.symm hcolumns hpaths.symm)
  | invalid hapart hchosen hbridges =>
      refine .invalid (hapart.symm hpaths) (chosen_comm.mp hchosen) fun first second hbridge => ?_
      exact hbridges second first (hbridge.symm hcolumns hpaths.symm)
  | ambiguous hapart hchosen horder hcandidate hseveral =>
      refine .ambiguous (hapart.symm hpaths) (fun other hother => ?_) horder (fun other => ?_)
        hseveral
      · exact hchosen other (chosen_comm.mp hother)
      · rw [hcandidate]
        exact candidate_comm hcolumns hpaths

end Declarations

namespace Schema

variable {declarations : Declarations} {schema : Schema} {source target : Path}
  {sourceStep targetStep : Step}

/-- Unless both tables own keys into each other, the answer for the link back is the answer for
the link there, seen from the other side. -/
theorem linkBetween_reversed
    (hasked : declarations.Asked schema source target sourceStep targetStep)
    (hcolumns : declarations.ColumnsLeadOneWay)
    (hpaths : Declarations.Unqualified source target)
    (honeWay : (∃ key, declarations.LeadsTo source target key) →
      ∀ key, ¬ declarations.LeadsTo target source key) :
    schema.linkBetween target source = reversedAnswer (schema.linkBetween source target) := by
  have hback : declarations.Asked schema target source targetStep sourceStep :=
    ⟨hasked.builds, hasked.target, hasked.source⟩
  rcases hasked.determines_or_undetermined with ⟨link, hlink⟩ | hundetermined
  · rw [hasked.linkBetween_of_determines hlink]
    apply hback.linkBetween_of_determines
    apply hlink.reversed hcolumns hpaths
    intro hdirect
    apply honeWay
    cases hlink with
    | manyToOne hkey => exact ⟨_, hkey⟩
    | oneToMany | chosen | only => cases hdirect
  · have hnone := hasked.undetermined_linkBetween_iff.mp hundetermined
    have hreversed := hundetermined.reversed hcolumns hpaths
    refine Declarations.Undetermined.unique hasked.builds.distinct ?_ hreversed
    rw [hback.undetermined_linkBetween_iff]
    intro link hlink
    -- a link back would be a link there, seen from its other side
    apply hnone link.reversed
    apply hlink.reversed hcolumns hpaths.symm
    exact fun _ key hkey => hnone _ (.manyToOne hkey)

/-- An answer other than a link by a key of the source's own table is the answer back, seen from
the other side. -/
theorem linkBetween_reversed_of_ne
    (hasked : declarations.Asked schema source target sourceStep targetStep)
    (hcolumns : declarations.ColumnsLeadOneWay)
    (hpaths : Declarations.Unqualified source target)
    {answer : Except SchemaError (Option Link)}
    (hanswer : schema.linkBetween source target = answer)
    (hne : ∀ here there, answer ≠ .ok (some (.manyToOne here there))) :
    schema.linkBetween target source = reversedAnswer answer := by
  rw [linkBetween_reversed hasked hcolumns hpaths, hanswer]
  rintro ⟨key, hkey⟩
  rw [hasked.linkBetween_of_leadsTo hkey] at hanswer
  exact absurd hanswer.symm (hne _ _)

/-- Between two tables without qualifiers links are dual.  A link by a key of the target's table
is the link back by this key, and the link by a key of the source's table is that too where the
target's table owns no key into the source's.  A junction is gone through both ways.  That there
is no link, that several junctions could be meant, and that the chosen junction does not fit holds
from both sides. -/
theorem freshLink_dual (hnames : declarations.tableNames.Nodup)
    (hcolumns : declarations.ColumnsLeadOneWay) (hbuilt : declarations.build = .ok schema)
    {first second : String} (hdistinct : first ≠ second) :
    let source : Path := [{ name := first }]
    let target : Path := [{ name := second }]
    (∀ here there, schema.freshLink source target = .ok (some (.oneToMany here there)) →
      schema.freshLink target source = .ok (some (.manyToOne there here))) ∧
    (∀ here there, schema.freshLink source target = .ok (some (.manyToOne here there)) →
      (∀ key ∈ schema.graph.outgoing second, key.targetTable ≠ first) →
        schema.freshLink target source = .ok (some (.oneToMany there here))) ∧
    (∀ here hereInterim thereInterim there, schema.freshLink source target =
        .ok (some (.manyToMany here hereInterim thereInterim there)) →
      schema.freshLink target source =
        .ok (some (.manyToMany there thereInterim hereInterim here))) ∧
    (schema.freshLink source target = .ok none ↔ schema.freshLink target source = .ok none) ∧
    (∀ candidates,
      schema.freshLink source target = .error (.ambiguousJunction first second candidates) ↔
        schema.freshLink target source = .error (.ambiguousJunction second first candidates)) ∧
    ∀ interim, schema.freshLink source target = .error (.invalidJunction first second interim) ↔
      schema.freshLink target source = .error (.invalidJunction second first interim) := by
  intro source target
  have hbuilds := Declarations.builds_of_build hnames hbuilt
  have hasked : declarations.Asked schema source target { name := first } { name := second } :=
    ⟨hbuilds, ⟨rfl, rfl, rfl⟩, ⟨rfl, rfl, rfl⟩⟩
  have hback : declarations.Asked schema target source { name := second } { name := first } :=
    ⟨hbuilds, hasked.target, hasked.source⟩
  have hpaths : Declarations.Unqualified source target := ⟨hdistinct, rfl, rfl⟩
  have hthere : ∀ {answer}, schema.linkBetween source target = answer → _ :=
    linkBetween_reversed_of_ne hasked hcolumns hpaths
  have hhere : ∀ {answer}, schema.linkBetween target source = answer → _ :=
    linkBetween_reversed_of_ne hback hcolumns hpaths.symm
  simp only [freshLink_eq]
  refine ⟨fun here there hlink => hthere hlink nofun, fun here there hlink hnone => ?_,
    fun here hereInterim thereInterim there hlink => hthere hlink nofun,
    ⟨fun hlink => hthere hlink nofun, fun hlink => hhere hlink nofun⟩,
    fun candidates => ⟨fun hlink => hthere hlink nofun, fun hlink => hhere hlink nofun⟩,
    fun interim => ⟨fun hlink => hthere hlink nofun, fun hlink => hhere hlink nofun⟩⟩
  rw [linkBetween_reversed hasked hcolumns hpaths, hlink]
  · rfl
  · intro _ key hkey
    obtain ⟨hmember, htable⟩ := Declarations.mem_keysOf.mp hkey.mem
    have howned : key ∈ schema.graph.outgoing second :=
      mem_outgoing.mpr ⟨hbuilds.graph.mem_iff.mpr hmember, htable⟩
    exact hnone key howned hkey.holds.1

/-- Books with authors and tags, readers who borrow and reserve books, and a junction that does not
fit its two tables. -/
def lendingLibrary : Declarations where
  tables :=
    [{ name := "author" },
      { name := "book", references := [⟨"author_id", "author", "id"⟩] },
      { name := "book_tag", references := [⟨"book_id", "book", "id"⟩, ⟨"tag_id", "tag", "id"⟩] },
      { name := "tag" },
      { name := "reader" },
      { name := "loan", references := [⟨"book_id", "book", "id"⟩, ⟨"reader_id", "reader", "id"⟩] },
      { name := "reservation", references := [⟨"reader_id", "reader", "id"⟩] }]
  customKeys := [⟨"reservation", "book_id", "book", "id"⟩]
  junctions := [⟨"tag", "author", "loan"⟩]

/-- The schema of the library, in which the columns of all keys are listed. -/
def lendingSchema : Schema where
  tables :=
    [{ name := "author", columns := ["id"] },
      { name := "book", columns := ["author_id", "id"],
        references := [⟨"author_id", "author", "id"⟩] },
      { name := "book_tag", columns := ["book_id", "tag_id"],
        references := [⟨"book_id", "book", "id"⟩, ⟨"tag_id", "tag", "id"⟩] },
      { name := "tag", columns := ["id"] },
      { name := "reader", columns := ["id"] },
      { name := "loan", columns := ["book_id", "reader_id"],
        references := [⟨"book_id", "book", "id"⟩, ⟨"reader_id", "reader", "id"⟩] },
      { name := "reservation", columns := ["reader_id", "book_id"],
        references := [⟨"reader_id", "reader", "id"⟩] }]
  graph :=
    { tables := ["author", "book", "book_tag", "tag", "reader", "loan", "reservation"]
      foreignKeys := [⟨"book", "author_id", "author", "id"⟩, ⟨"book_tag", "book_id", "book", "id"⟩,
        ⟨"book_tag", "tag_id", "tag", "id"⟩, ⟨"loan", "book_id", "book", "id"⟩,
        ⟨"loan", "reader_id", "reader", "id"⟩, ⟨"reservation", "reader_id", "reader", "id"⟩,
        ⟨"reservation", "book_id", "book", "id"⟩] }
  junctions := [⟨"tag", "author", "loan"⟩]

theorem freshLink_dual_lendingLibrary :
    let author : Path := [{ name := "author" }]
    let book : Path := [{ name := "book" }]
    let tag : Path := [{ name := "tag" }]
    let reader : Path := [{ name := "reader" }]
    let bookTag : Path := [{ name := "book_tag" }]
    lendingLibrary.tableNames.Nodup ∧ lendingLibrary.ColumnsLeadOneWay ∧
      lendingLibrary.build = .ok lendingSchema ∧ "author" ≠ "book" ∧
      lendingSchema.freshLink book author =
        .ok (some (.manyToOne ⟨"author_id", book⟩ ⟨"id", author⟩)) ∧
      lendingSchema.freshLink author book =
        .ok (some (.oneToMany ⟨"id", author⟩ ⟨"author_id", book⟩)) ∧
      lendingSchema.freshLink tag book = .ok (some (.manyToMany ⟨"id", tag⟩
        ⟨"tag_id", bookTag⟩ ⟨"book_id", bookTag⟩ ⟨"id", book⟩)) ∧
      lendingSchema.freshLink reader author = .ok none ∧
      lendingSchema.freshLink reader book =
        .error (.ambiguousJunction "reader" "book" ["loan", "reservation"]) ∧
      lendingSchema.freshLink author tag = .error (.invalidJunction "author" "tag" "loan") := by
  intro author book tag reader bookTag
  have hnames : lendingLibrary.tableNames.Nodup := by decide
  have hcolumns : lendingLibrary.ColumnsLeadOneWay := by decide
  have hbuilt : lendingLibrary.build = .ok lendingSchema := by rfl
  have hbooks : "author" ≠ "book" := by decide
  obtain ⟨hback, -⟩ := freshLink_dual hnames hcolumns hbuilt hbooks
  obtain ⟨-, hthere, -⟩ := freshLink_dual hnames hcolumns hbuilt hbooks.symm
  obtain ⟨-, -, hjunction, -⟩ :=
    freshLink_dual hnames hcolumns hbuilt (by decide : "book" ≠ "tag")
  obtain ⟨-, -, -, hnone, -⟩ :=
    freshLink_dual hnames hcolumns hbuilt (by decide : "author" ≠ "reader")
  obtain ⟨-, -, -, -, hseveral, -⟩ :=
    freshLink_dual hnames hcolumns hbuilt (by decide : "book" ≠ "reader")
  obtain ⟨-, -, -, -, -, hinvalid⟩ :=
    freshLink_dual hnames hcolumns hbuilt (by decide : "tag" ≠ "author")
  refine ⟨hnames, hcolumns, hbuilt, hbooks, hback _ _ rfl, hthere _ _ rfl (by decide),
    hjunction _ _ _ _ rfl, hnone.mp rfl, (hseveral _).mp rfl, (hinvalid _).mp rfl⟩

/-- A note declares two keys into books, on columns of their own, and a custom key leads from one
of these columns to an author as well. -/
def annotatedLibrary : Declarations where
  tables :=
    [{ name := "author", columns := ["id"], primaryKey := ["id"] },
      { name := "book", columns := ["id"], primaryKey := ["id"] },
      { name := "note", columns := ["id", "about", "book_id"], primaryKey := ["id"],
        references := [⟨"about", "book", "id"⟩, ⟨"book_id", "book", "id"⟩] }]
  customKeys := [⟨"note", "about", "author", "id"⟩]

/-- The schema of the annotated library. -/
def annotatedSchema : Schema where
  tables := annotatedLibrary.tables
  graph :=
    { tables := ["author", "book", "note"]
      foreignKeys := [⟨"note", "about", "book", "id"⟩, ⟨"note", "book_id", "book", "id"⟩,
        ⟨"note", "about", "author", "id"⟩] }
  junctions := []

/-- It is not enough that each table declares its own keys on different columns.  On the way to
books, the first key to them takes the column that the only key to authors needs; on the way to
authors, another key to books is left. -/
theorem freshLink_not_dual_customKey :
    let author : Path := [{ name := "author" }]
    let book : Path := [{ name := "book" }]
    let note : Path := [{ name := "note" }]
    annotatedLibrary.tableNames.Nodup ∧
      (∀ table ∈ annotatedLibrary.tables, (table.references.map Reference.column).Nodup) ∧
      annotatedLibrary.build = .ok annotatedSchema ∧
      annotatedSchema.freshLink book author = .ok (some (.manyToMany ⟨"id", book⟩
        ⟨"book_id", note⟩ ⟨"about", note⟩ ⟨"id", author⟩)) ∧
      annotatedSchema.freshLink author book = .ok none := by
  refine ⟨by decide, by decide, rfl, rfl, rfl⟩

end Schema

end TreeQuery.Catalog
