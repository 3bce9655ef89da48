import TreeQuery.Proofs.Catalog.Faithful
import TreeQuery.Proofs.Catalog.Transparency
import TreeQuery.Proofs.Plan.Statements

/-!
# The joins of a statement

Every join that is gathered stands for the place of a nested bucket and is made from the
link between its parent's place and its own.  The text by which equal joins are recognized
tells places apart, so that a join is left out only where its place is joined already, and
every join comes after the one that it refers to.
-/

namespace TreeQuery

open Catalog (Link Memo Schema)

/-! ## Legible names -/

/-- A name that can be read back from the text by which joins are recognized: from keys, and
from beside the arrow between them. -/
structure LegibleName (name : String) : Prop where
  keyName : KeyName name
  no_arrow : '>' ∉ name.toList

instance (name : String) : Decidable (LegibleName name) :=
  decidable_of_iff (KeyName name ∧ '>' ∉ name.toList)
    ⟨fun ⟨hkey, harrow⟩ => ⟨hkey, harrow⟩, fun hname => ⟨hname.keyName, hname.no_arrow⟩⟩

/-- A name of letters, digits and single underscores, of which none is the last character, is
legible. -/
theorem LegibleName.of_identifier {name : String} (hne : name.toList ≠ [])
    (hcharacters : ∀ character ∈ name.toList, character.isAlphanum ∨ character = '_')
    (hseparable : Segments.Separable name.toList) : LegibleName name := by
  have hother : ∀ character ∈ [':', '>'], character ∉ name.toList := by
    intro character hcharacter hmem
    rcases List.mem_pair.mp hcharacter with rfl | rfl
    · exact absurd (hcharacters _ hmem) (by decide)
    · exact absurd (hcharacters _ hmem) (by decide)
  exact ⟨⟨hne, hother _ (by decide), hseparable⟩, hother _ (by decide)⟩

/-- The columns of all foreign keys have legible names. -/
def Catalog.Schema.LegibleKeys (schema : Schema) : Prop :=
  ∀ key ∈ schema.graph.foreignKeys, LegibleName key.column ∧ LegibleName key.targetColumn

instance (schema : Schema) : Decidable schema.LegibleKeys :=
  inferInstanceAs (Decidable (∀ key ∈ schema.graph.foreignKeys, _))

theorem Segments.notMem_join {character : Char} (hcharacter : character ≠ '_')
    {segments : List String} (hsegments : ∀ segment ∈ segments, character ∉ segment.toList) :
    character ∉ (join segments).toList := by
  rw [toList_join]
  induction segments with
  | nil => exact List.not_mem_nil
  | cons first rest ih =>
      obtain ⟨hfirst, hrest⟩ := List.forall_mem_cons.mp hsegments
      cases rest with
      | nil => simpa using hfirst
      | cons second rest =>
          rw [List.map_cons, List.map_cons, List.intercalate_cons_cons, List.mem_append,
            List.mem_append, ← List.map_cons]
          rintro ((hmem | hmem) | hmem)
          · exact hfirst hmem
          · simp [hcharacter] at hmem
          · exact ih hrest hmem

namespace Step

/-- A step of legible names. -/
abbrev Legible (step : Step) : Prop :=
  step.Named LegibleName

theorem Legible.keyed {step : Step} (hlegible : step.Legible) : step.Keyed where
  name := hlegible.name.keyName
  qualifier qualifier hmem := (hlegible.qualifier qualifier hmem).keyName
  label label hmem := (hlegible.label label hmem).keyName

theorem Legible.no_arrow {step : Step} (hlegible : step.Legible) : '>' ∉ step.key.toList := by
  obtain ⟨name, qualifier, label⟩ := step
  have hname := hlegible.name.no_arrow
  cases qualifier with
  | none =>
      cases label with
      | none => exact hname
      | some label => simpa [key] using ⟨hname, (hlegible.label label rfl).no_arrow⟩
  | some qualifier =>
      have hqualifier := (hlegible.qualifier qualifier rfl).no_arrow
      cases label with
      | none => simpa [key] using ⟨hname, hqualifier⟩
      | some label =>
          simpa [key, not_or] using ⟨hname, hqualifier, (hlegible.label label rfl).no_arrow⟩

end Step

/-- A path of legible names. -/
abbrev Path.Legible (path : Path) : Prop :=
  path.Named LegibleName

theorem Path.Legible.keyed {path : Path} (hlegible : path.Legible) : path.Keyed :=
  fun step hstep => Step.Legible.keyed (hlegible step hstep)

theorem Path.Named.child {kind : String → Prop} {path : Path} (hpath : path.Named kind)
    {step : Step} (hstep : step.Named kind) : (path.child step).Named kind :=
  List.forall_mem_append.mpr ⟨hpath, List.forall_mem_singleton.mpr hstep⟩

/-- The names of an address are legible. -/
structure Address.Legible (address : Address) : Prop where
  path : address.path.Legible
  name : LegibleName address.name

namespace Address

theorem Legible.keyed {address : Address} (hlegible : address.Legible) : address.Keyed :=
  ⟨hlegible.path.keyed, hlegible.name.keyName⟩

theorem Legible.no_arrow {address : Address} (hlegible : address.Legible) :
    '>' ∉ address.key.toList := by
  rw [key_eq_join]
  apply Segments.notMem_join (by decide)
  intro segment hsegment
  rcases List.mem_append.mp hsegment with hsegment | hsegment
  · obtain ⟨step, hstep, rfl⟩ := List.mem_map.mp hsegment
    exact Step.Legible.no_arrow (hlegible.path step hstep)
  · exact List.mem_singleton.mp hsegment ▸ hlegible.name.no_arrow

end Address

/-- Many-to-one links between legible columns are told apart by their identities. -/
theorem Catalog.Link.identity_inj {source target other otherTarget : Address}
    (hsource : source.Legible) (htarget : target.Legible) (hother : other.Legible)
    (hotherTarget : otherTarget.Legible)
    (hidentity : (manyToOne source target).identity = (manyToOne other otherTarget).identity) :
    source = other ∧ target = otherTarget := by
  have hchars (first second : Address) : (manyToOne first second).identity.toList =
      ['m', '2', 'o', ':'] ++ first.key.toList ++ ['-'] ++ '>' :: second.key.toList := by
    simp [identity, kind, Link.source, Link.target]
  have hbefore : '>' ∉ ['m', '2', 'o', ':'] ++ source.key.toList ++ ['-'] := by
    simpa using hsource.no_arrow
  have hsides := congrArg String.toList hidentity
  rw [hchars, hchars, List.append_cons_inj_of_notMem hbefore htarget.no_arrow] at hsides
  obtain ⟨hleft, -, hright⟩ := hsides
  constructor
  · apply hsource.keyed.key_inj hother.keyed
    exact String.toList_inj.mp (List.append_cancel_left (List.append_cancel_right hleft))
  · apply htarget.keyed.key_inj hotherTarget.keyed
    exact String.toList_inj.mp hright

namespace Plan

variable {schema : Schema} {memo after : Memo} {root parent place middle : Path}
  {joins : List KnownJoin} {places below : List Path} {known : KnownJoin} {gathered : Gathered}

/-! ## One join -/

/-- A join of the table at a place below its parent's, on the columns that the link between
the two places equates. -/
inductive JoinedAt (schema : Schema) : Path → Path → KnownJoin → Prop
  | intro {parent : Path} {step : Step} {source target : Address} {owner joined : Sql.TableRef}
      (hlink : schema.linkBetween parent (parent.child step) =
        .ok (some (.manyToOne source target)))
      (howner : schema.tableRef? parent = some owner)
      (hjoined : schema.tableRef? (parent.child step) = some joined) :
      JoinedAt schema parent (parent.child step) ⟨(Link.manyToOne source target).identity,
        .left, joined, .binary .eq (.ofTable owner.reference source.name)
          (.ofTable joined.reference target.name)⟩

theorem JoinedAt.table (hjoin : JoinedAt schema parent place known) :
    schema.tableRef? place = some known.join.table := by
  cases hjoin with
  | intro _ _ hjoined => exact hjoined

theorem JoinedAt.length_lt (hjoin : JoinedAt schema parent place known) :
    parent.length < place.length := by
  cases hjoin with
  | intro => simp [Path.child]

/-- A place is joined to one parent only, and by one join. -/
theorem JoinedAt.unique {other : KnownJoin} {otherParent : Path}
    (hjoin : JoinedAt schema parent place known)
    (hother : JoinedAt schema otherParent place other) : known = other := by
  generalize hsame : place = otherPlace at hother
  cases hjoin with
  | intro hlink howner hjoined =>
      cases hother with
      | intro hotherLink hotherOwner hotherJoined =>
          obtain ⟨rfl, hstep⟩ := List.append_inj' hsame rfl
          obtain rfl := List.singleton_inj.mp hstep
          obtain ⟨rfl, rfl⟩ := Link.manyToOne.inj
            (Schema.linkBetween_unique hlink hotherLink)
          obtain rfl := Option.some.inj (howner.symm.trans hotherOwner)
          obtain rfl := Option.some.inj (hjoined.symm.trans hotherJoined)
          rfl

/-- Joins that are taken for equal stand for the same place. -/
theorem JoinedAt.place_eq (hkeys : schema.LegibleKeys) {other : KnownJoin}
    {otherParent otherPlace : Path} (hjoin : JoinedAt schema parent place known)
    (hother : JoinedAt schema otherParent otherPlace other) (hplace : place.Legible)
    (hotherPlace : otherPlace.Legible) (hidentity : known.identity = other.identity) :
    place = otherPlace := by
  cases hjoin with
  | @intro step source target owner joined hlink howner hjoined =>
      cases hother with
      | @intro otherStep otherSource otherTarget otherOwner otherJoined hotherLink hotherOwner
          hotherJoined =>
          have hlegible : ∀ {above : Path} {next : Step} {first second : Address},
              (above.child next).Legible →
              schema.linkBetween above (above.child next) =
                .ok (some (.manyToOne first second)) →
              first.Legible ∧ second.Legible ∧ second.path = above.child next := by
            intro above next first second hbelow hbetween
            have hrelates := Schema.linkBetween_ok hbetween
            obtain ⟨hfirst, hsecond⟩ := hrelates.paths
            obtain ⟨hfirstName, hsecondName⟩ := hrelates.names hkeys
            refine ⟨⟨?_, hfirstName⟩, ⟨?_, hsecondName⟩, hsecond⟩
            · rw [show first.path = above from hfirst]
              exact (List.forall_mem_append.mp hbelow).1
            · rw [show second.path = above.child next from hsecond]
              exact hbelow
          obtain ⟨hsource, htarget, hpath⟩ := hlegible hplace hlink
          obtain ⟨hotherSource, hotherTarget, hotherPath⟩ := hlegible hotherPlace hotherLink
          obtain ⟨-, rfl⟩ :=
            Link.identity_inj hsource htarget hotherSource hotherTarget hidentity
          exact hpath.symm.trans hotherPath

/-- A place is joined to its parent's by a link that is not left to a statement of its own. -/
def IsJoined (schema : Schema) (parent place : Path) : Prop :=
  ∃ link, schema.linkBetween parent place = .ok (some link) ∧ link.isDeferred = false

theorem JoinedAt.isJoined (hjoin : JoinedAt schema parent place known) :
    IsJoined schema parent place := by
  cases hjoin with
  | intro hlink => exact ⟨_, hlink, rfl⟩

theorem not_isJoined {link : Link} (hlink : schema.linkBetween parent place = .ok (some link))
    (hdeferred : link.isDeferred = true) : ¬ IsJoined schema parent place := by
  rintro ⟨other, hother, hjoined⟩
  rw [← Schema.linkBetween_unique hlink hother, hdeferred] at hjoined
  cases hjoined

/-- A nested bucket is joined at its place, unless it is left to a statement of its own. -/
theorem joinOf?_exact (hkeys : schema.LegibleKeys) {step : Step} {join : Option KnownJoin}
    (hplace : place.Legible) (hstep : step.Legible) (hexact : Memo.Exact schema memo)
    (hrun : Succeeds (joinOf? schema place (place.child step)) memo join after) :
    Memo.Exact schema after ∧
      match join with
      | none => ¬ IsJoined schema place (place.child step)
      | some known => JoinedAt schema place (place.child step) known := by
  have hchild : (place.child step).Legible := Path.Named.child hplace hstep
  cases joinOf?_run hrun with
  | @joined source target _ _ _ _ _ _ _ hlink hcolumn hother htable =>
      obtain ⟨hlink, hlinked⟩ := Schema.link_exact hplace.keyed hchild.keyed hexact hlink
      have hrelates := Schema.linkBetween_ok hlink
      obtain ⟨hsourceName, htargetName⟩ := hrelates.names hkeys
      have hpaths : source.path = place ∧ target.path = place.child step := hrelates.paths
      have hsource : source.Keyed := by
        refine ⟨?_, hsourceName.keyName⟩
        rw [hpaths.1]
        exact hplace.keyed
      have htarget : target.Keyed := by
        refine ⟨?_, htargetName.keyName⟩
        rw [hpaths.2]
        exact hchild.keyed
      obtain ⟨howner, hownerName, hfirst⟩ := Schema.column_exact hsource hlinked hcolumn
      obtain ⟨hjoined, hjoinedName, hsecond⟩ := Schema.column_exact htarget hfirst hother
      obtain ⟨htable, hafter⟩ := Schema.table_exact hchild.keyed hsecond htable
      rw [hpaths.1] at howner
      rw [hpaths.2, htable] at hjoined
      refine ⟨hafter, ?_⟩
      dsimp only
      rw [Catalog.ResolvedColumn.expression, Catalog.ResolvedColumn.expression, hownerName,
        hjoinedName, ← Option.some.inj hjoined]
      exact .intro hlink howner htable
  | deferred hlink hdeferred =>
      obtain ⟨hlink, hlinked⟩ := Schema.link_exact hplace.keyed hchild.keyed hexact hlink
      exact ⟨hlinked, not_isJoined hlink hdeferred⟩

/-! ## All joins -/

/-- Joins below a root, each of a place that was not joined before, to the root or to a place
that was. -/
inductive Chained (schema : Schema) (root : Path) : List KnownJoin → List Path → Prop
  | nil : Chained schema root [] []
  | snoc {joins : List KnownJoin} {places : List Path} {parent place : Path} {known : KnownJoin}
      (hchain : Chained schema root joins places) (hparent : parent ∈ root :: places)
      (hjoin : JoinedAt schema parent place known) (hlegible : place.Legible)
      (hfresh : place ∉ places) :
      Chained schema root (joins ++ [known]) (places ++ [place])

namespace Chained

/-- Every join stands for a joined place. -/
theorem exists_place (hchain : Chained schema root joins places) (hmem : known ∈ joins) :
    ∃ place ∈ places, place.Legible ∧ ∃ parent, JoinedAt schema parent place known := by
  induction hchain with
  | nil => cases hmem
  | snoc _ _ hjoin hlegible _ ih =>
      rcases List.mem_append.mp hmem with hmem | hmem
      · obtain ⟨place, hplace, hrest⟩ := ih hmem
        exact ⟨place, List.mem_append_left _ hplace, hrest⟩
      · obtain rfl := List.mem_singleton.mp hmem
        exact ⟨_, List.mem_append_right _ List.mem_cons_self, hlegible, _, hjoin⟩

/-- Every joined place has its join. -/
theorem exists_join (hchain : Chained schema root joins places) (hmem : place ∈ places) :
    ∃ known ∈ joins, ∃ parent, JoinedAt schema parent place known := by
  induction hchain with
  | nil => cases hmem
  | snoc _ _ hjoin _ _ ih =>
      rcases List.mem_append.mp hmem with hmem | hmem
      · obtain ⟨known, hknown, hrest⟩ := ih hmem
        exact ⟨known, List.mem_append_left _ hknown, hrest⟩
      · obtain rfl := List.mem_singleton.mp hmem
        exact ⟨_, List.mem_append_right _ List.mem_cons_self, _, hjoin⟩

/-- Joins and places belong together in order, and each join brings the table of its place. -/
theorem tables (hchain : Chained schema root joins places) :
    List.Forall₂ (fun place known => schema.tableRef? place = some known.join.table)
      places joins := by
  induction hchain with
  | nil => exact .nil
  | snoc _ _ hjoin _ _ ih => exact List.rel_append ih (.cons hjoin.table .nil)

theorem legible (hchain : Chained schema root joins places) : ∀ place ∈ places, place.Legible := by
  induction hchain with
  | nil => exact fun _ hnone => absurd hnone List.not_mem_nil
  | snoc _ _ _ hlegible _ ih =>
      exact List.forall_mem_append.mpr ⟨ih, List.forall_mem_singleton.mpr hlegible⟩

theorem length_lt (hchain : Chained schema root joins places) :
    ∀ place ∈ places, root.length < place.length := by
  induction hchain with
  | nil => exact fun _ hnone => absurd hnone List.not_mem_nil
  | @snoc joins places parent place known hchain hparent hjoin hlegible hfresh ih =>
      refine List.forall_mem_append.mpr ⟨ih, List.forall_mem_singleton.mpr ?_⟩
      rcases List.mem_cons.mp hparent with rfl | hparent
      · exact hjoin.length_lt
      · exact (ih parent hparent).trans hjoin.length_lt

/-- The root and the joined places are all different. -/
theorem nodup (hchain : Chained schema root joins places) : (root :: places).Nodup := by
  refine List.nodup_cons.mpr ⟨fun hroot => lt_irrefl _ (hchain.length_lt root hroot), ?_⟩
  induction hchain with
  | nil => exact List.nodup_nil
  | snoc _ _ _ _ hfresh ih =>
      refine List.nodup_append.mpr ⟨ih, List.nodup_singleton _, ?_⟩
      intro first hfirst second hsecond
      obtain rfl := List.mem_singleton.mp hsecond
      exact ne_of_mem_of_not_mem hfirst hfresh

/-- Each join is made to the root or to a place that was joined before it. -/
theorem split {before behind : List KnownJoin}
    (hchain : Chained schema root (before ++ known :: behind) places) :
    ∃ earlier parent place, Chained schema root (before ++ [known]) (earlier ++ [place]) ∧
      parent ∈ root :: earlier ∧ JoinedAt schema parent place known := by
  generalize hjoins : before ++ known :: behind = joins at hchain
  induction hchain generalizing behind with
  | nil => cases before <;> cases hjoins
  | @snoc joins places parent place last hchain hparent hjoin hlegible hfresh ih =>
      rcases List.eq_nil_or_concat behind with rfl | ⟨others, other, rfl⟩
      · obtain ⟨rfl, hlast⟩ := List.append_inj' hjoins rfl
        obtain rfl := List.singleton_inj.mp hlast
        exact ⟨places, parent, place, .snoc hchain hparent hjoin hlegible hfresh, hparent, hjoin⟩
      · rw [List.concat_eq_append, ← List.cons_append, ← List.append_assoc] at hjoins
        exact ih (List.append_inj' hjoins rfl).1

/-- One more join adds its place, unless the place is joined already. -/
theorem addJoin (hkeys : schema.LegibleKeys)
    (hchain : Chained schema root gathered.joins places) (hparent : parent ∈ root :: places)
    (hjoin : JoinedAt schema parent place known) (hlegible : place.Legible) :
    ∃ later, Chained schema root (gathered.addJoin known).joins later ∧
      ∀ other, other ∈ later ↔ other ∈ places ∨ other = place := by
  rw [Gathered.addJoin]
  by_cases hpresent : gathered.joins.any (fun other => other.identity == known.identity) = true
  · obtain ⟨other, hmem, hidentity⟩ := List.any_eq_true.mp hpresent
    obtain ⟨otherPlace, hplace, hotherLegible, otherParent, hother⟩ := hchain.exists_place hmem
    have hsame : otherPlace = place :=
      hother.place_eq hkeys hjoin hotherLegible hlegible (beq_iff_eq.mp hidentity)
    rw [if_pos hpresent]
    refine ⟨places, hchain, fun other => ⟨.inl, ?_⟩⟩
    rintro (hother | rfl)
    · exact hother
    · exact hsame ▸ hplace
  · have hfresh : place ∉ places := by
      intro hplace
      obtain ⟨other, hmem, otherParent, hother⟩ := hchain.exists_join hplace
      apply hpresent
      rw [hjoin.unique hother]
      exact List.any_eq_true.mpr ⟨other, hmem, beq_self_eq_true _⟩
    rw [if_neg hpresent]
    refine ⟨places ++ [place], .snoc hchain hparent hjoin hlegible hfresh, fun other => ?_⟩
    rw [List.mem_append, List.mem_singleton]

/-- The joins gathered below a joined place add their places, but for those that are joined
already. -/
theorem foldl_addJoin (hkeys : schema.LegibleKeys)
    (hchain : Chained schema root gathered.joins places) (hmiddle : middle ∈ root :: places)
    (hbelow : Chained schema middle joins below) :
    ∃ later, Chained schema root (joins.foldl Gathered.addJoin gathered).joins later ∧
      ∀ other, other ∈ later ↔ other ∈ places ∨ other ∈ below := by
  induction hbelow with
  | nil => exact ⟨places, hchain, fun other => by simp⟩
  | @snoc joins below parent place known _ hparent hjoin hlegible _ ih =>
      obtain ⟨later, hlater, hmem⟩ := ih
      have hknown : parent ∈ root :: later := by
        rcases List.mem_cons.mp hparent with rfl | hparent
        · rcases List.mem_cons.mp hmiddle with rfl | hmiddle
          · exact List.mem_cons_self
          · exact List.mem_cons_of_mem _ ((hmem parent).mpr (.inl hmiddle))
        · exact List.mem_cons_of_mem _ ((hmem parent).mpr (.inr hparent))
      obtain ⟨last, hlast, hmore⟩ := hlater.addJoin hkeys hknown hjoin hlegible
      rw [List.foldl_append, List.foldl_cons, List.foldl_nil]
      refine ⟨last, hlast, fun other => ?_⟩
      rw [hmore, hmem, List.mem_append, List.mem_singleton, or_assoc]

/-- A joined bucket adds its place and those joined below it, but for those that are joined
already. -/
theorem absorb (hkeys : schema.LegibleKeys) {nested : Gathered}
    (hchain : Chained schema root gathered.joins places)
    (hjoin : JoinedAt schema root place known) (hlegible : place.Legible)
    (hbelow : Chained schema place nested.joins below) :
    ∃ later, Chained schema root ((gathered.addJoin known).absorb nested).joins later ∧
      ∀ other, other ∈ later ↔ other ∈ places ∨ other = place ∨ other ∈ below := by
  obtain ⟨middle, hmiddle, hmember⟩ := hchain.addJoin hkeys List.mem_cons_self hjoin hlegible
  have hplace : place ∈ root :: middle := List.mem_cons_of_mem _ ((hmember place).mpr (.inr rfl))
  have hwidened : Chained schema root (Gathered.joins { gathered.addJoin known with
      columns := (gathered.addJoin known).columns ++ nested.columns }) middle := hmiddle
  obtain ⟨later, hlater, hmore⟩ := hwidened.foldl_addJoin hkeys hplace hbelow
  refine ⟨later, hlater, fun other => ?_⟩
  rw [hmore, hmember, or_assoc]

end Chained

end Plan

end TreeQuery
