import TreeQuery.Proofs.Catalog.Faithful
import TreeQuery.Proofs.Session.NestedRecords
import TreeQuery.Session.Read

/-!
# Sites in a nested record

A nested bucket is reached through the output names of the joined buckets above it,
and its columns stand in the nested record behind these names, beside the fields for
nested buckets that are read later.  As long as output names differ from each other and
from the columns beside them, different sites are apart.
-/

namespace TreeQuery

theorem Path.tableName_child (place : Path) (step : Step) :
    (place.child step).tableName = step.name := by
  rw [Path.tableName, Path.child, List.getLast?_concat]

namespace Session

open Catalog (Link Memo Schema)

/-- Elements are reached from others through joined buckets, by their output names. -/
inductive Reached (schema : Schema) :
    Path → List Element → List String → Path → List Element → Prop
  | here {place : Path} {elements : List Element} :
      Reached schema place elements [] place elements
  | through {place deepPlace : Path} {elements deepElements : List Element} {child : Bucket}
      {link : Link} {path : List String} (hchild : .bucket child ∈ elements)
      (hlink : schema.linkBetween place (place.child child.step) = .ok (some link))
      (hjoined : link.isDeferred = false)
      (hreached : Reached schema (place.child child.step) child.elements path deepPlace
        deepElements) :
      Reached schema place elements (child.outputName :: path) deepPlace deepElements

/-- Nested buckets side by side have different output names, and no column of the table
has one of these. -/
structure SeparateLevel (schema : Schema) (table : String) (elements : List Element) : Prop where
  siblings : ((elements.filterMap ElementOf.bucket?).map Bucket.outputName).Nodup
  columns : ∀ child, .bucket child ∈ elements → schema.hasColumn table child.outputName = false

/-- The output names of a bucket are separate at every level of nesting. -/
def Separate (schema : Schema) (bucket : Bucket) : Prop :=
  ∀ inner, Bucket.Within inner bucket → SeparateLevel schema inner.name inner.elements

variable {schema : Schema}

theorem Separate.child {bucket child : Bucket} (hseparate : Separate schema bucket)
    (hchild : .bucket child ∈ bucket.elements) : Separate schema child :=
  fun inner hwithin => hseparate inner (.nested hchild hwithin)

theorem mem_filterMap_bucket? {elements : List Element} {child : Bucket} :
    child ∈ elements.filterMap ElementOf.bucket? ↔ .bucket child ∈ elements := by
  rw [List.mem_filterMap]
  constructor
  · rintro ⟨element, helement, hbucket⟩
    cases element with
    | bucket nested =>
        obtain rfl := Option.some.inj hbucket
        exact helement
    | _ => cases hbucket
  · exact fun hchild => ⟨_, hchild, rfl⟩

instance (table : String) (elements : List Element) :
    Decidable (SeparateLevel schema table elements) :=
  decidable_of_iff (((elements.filterMap ElementOf.bucket?).map Bucket.outputName).Nodup ∧
      ∀ child ∈ elements.filterMap ElementOf.bucket?,
        schema.hasColumn table child.outputName = false)
    ⟨fun hparts => ⟨hparts.1, fun child hchild =>
        hparts.2 child (mem_filterMap_bucket?.mpr hchild)⟩,
      fun hlevel => ⟨hlevel.siblings, fun child hchild =>
        hlevel.columns child (mem_filterMap_bucket?.mp hchild)⟩⟩

instance (bucket : Bucket) : Decidable (Separate schema bucket) :=
  decidable_of_iff (∀ inner ∈ bucket.levels, SeparateLevel schema inner.name inner.elements)
    ⟨fun hlevels inner hwithin => hlevels inner (Bucket.mem_levels.mpr hwithin),
      fun hseparate inner hmem => hseparate inner (Bucket.mem_levels.mp hmem)⟩

/-- Side by side, an output name stands for one nested bucket. -/
theorem SeparateLevel.child_eq {table : String} {elements : List Element}
    (hlevel : SeparateLevel schema table elements) {first second : Bucket}
    (hfirst : .bucket first ∈ elements) (hsecond : .bucket second ∈ elements)
    (hname : first.outputName = second.outputName) : first = second :=
  List.inj_on_of_nodup_map hlevel.siblings (mem_filterMap_bucket?.mpr hfirst)
    (mem_filterMap_bucket?.mpr hsecond) hname

namespace Reached

variable {place deepPlace : Path} {elements deepElements : List Element} {path : List String}

theorem separateLevel {bucket : Bucket} (hseparate : Separate schema bucket)
    (htable : place.tableName = bucket.name)
    (hreached : Reached schema place bucket.elements path deepPlace deepElements) :
    SeparateLevel schema deepPlace.tableName deepElements := by
  generalize helements : bucket.elements = elements at hreached
  induction hreached generalizing bucket with
  | here =>
      subst helements
      exact htable ▸ hseparate bucket .self
  | through hchild hlink hjoined hreached ih =>
      subst helements
      exact ih (hseparate.child hchild) (Path.tableName_child _ _) rfl

/-- The names of a bucket beside what is reached are separate. -/
theorem separate_child {bucket child : Bucket} (hseparate : Separate schema bucket)
    (hreached : Reached schema place bucket.elements path deepPlace deepElements)
    (hchild : .bucket child ∈ deepElements) : Separate schema child := by
  generalize helements : bucket.elements = elements at hreached
  induction hreached generalizing bucket with
  | here =>
      subst helements
      exact hseparate.child hchild
  | through hnested hlink hjoined hreached ih =>
      subst helements
      exact ih (hseparate.child hnested) hchild rfl

theorem cons_inv {name : String}
    (hreached : Reached schema place elements (name :: path) deepPlace deepElements) :
    ∃ child link, .bucket child ∈ elements ∧ child.outputName = name ∧
      schema.linkBetween place (place.child child.step) = .ok (some link) ∧
        link.isDeferred = false ∧
          Reached schema (place.child child.step) child.elements path deepPlace deepElements := by
  cases hreached with
  | through hchild hlink hjoined hreached => exact ⟨_, _, hchild, rfl, hlink, hjoined, hreached⟩

/-- What is reached through two parts of a path is reached through the first part. -/
theorem split {rest : List String}
    (hreached : Reached schema place elements (path ++ rest) deepPlace deepElements) :
    ∃ middlePlace middleElements,
      Reached schema place elements path middlePlace middleElements ∧
        Reached schema middlePlace middleElements rest deepPlace deepElements := by
  induction path generalizing place elements with
  | nil => exact ⟨place, elements, .here, hreached⟩
  | cons name path ih =>
      cases hreached with
      | through hchild hlink hjoined hreached =>
          obtain ⟨middlePlace, middleElements, hfirst, hsecond⟩ := ih hreached
          exact ⟨middlePlace, middleElements, .through hchild hlink hjoined hfirst, hsecond⟩

/-- A path leads to one place. -/
theorem unique {bucket : Bucket} (hseparate : Separate schema bucket)
    {otherPlace : Path} {otherElements : List Element}
    (hreached : Reached schema place bucket.elements path deepPlace deepElements)
    (hother : Reached schema place bucket.elements path otherPlace otherElements) :
    deepPlace = otherPlace ∧ deepElements = otherElements := by
  induction path generalizing place bucket with
  | nil =>
      cases hreached
      cases hother
      exact ⟨rfl, rfl⟩
  | cons name path ih =>
      obtain ⟨child, _, hchild, hname, -, -, hreached⟩ := hreached.cons_inv
      obtain ⟨second, _, hsecond, hsecondName, -, -, hother⟩ := hother.cons_inv
      obtain rfl := (hseparate bucket .self).child_eq hchild hsecond
        (hname.trans hsecondName.symm)
      exact ih (hseparate.child hchild) hreached hother

end Reached

/-- The place of a column in the nested record, or of a nested bucket that is read
later. -/
inductive Site (schema : Schema) (place : Path) (elements : List Element) :
    List String → Prop
  | column {deepPlace : Path} {deepElements : List Element} {path : List String}
      {name : String} (hreached : Reached schema place elements path deepPlace deepElements)
      (hcolumn : schema.hasColumn deepPlace.tableName name = true) :
      Site schema place elements (path ++ [name])
  | nested {deepPlace : Path} {deepElements : List Element} {path : List String}
      {child : Bucket} {link : Link}
      (hreached : Reached schema place elements path deepPlace deepElements)
      (hchild : .bucket child ∈ deepElements)
      (hlink : schema.linkBetween deepPlace (deepPlace.child child.step) = .ok (some link))
      (hdeferred : link.isDeferred = true) :
      Site schema place elements (path ++ [child.outputName])

namespace Site

variable {place : Path} {bucket : Bucket} {first second : List String}

/-- A site ends in a name of its level under which no bucket is joined. -/
theorem ends (hseparate : Separate schema bucket) (htable : place.tableName = bucket.name)
    (hsite : Site schema place bucket.elements first) :
    ∃ path name deepPlace deepElements, first = path ++ [name] ∧
      Reached schema place bucket.elements path deepPlace deepElements ∧
      ∀ child link, .bucket child ∈ deepElements → child.outputName = name →
        schema.linkBetween deepPlace (deepPlace.child child.step) = .ok (some link) →
          link.isDeferred = true := by
  cases hsite with
  | @column deepPlace deepElements path name hreached hcolumn =>
      refine ⟨path, name, deepPlace, deepElements, rfl, hreached, ?_⟩
      rintro child link hchild rfl -
      have hnone := (hreached.separateLevel hseparate htable).columns child hchild
      rw [hcolumn] at hnone
      cases hnone
  | @nested deepPlace deepElements path child link hreached hchild hlink hdeferred =>
      refine ⟨path, child.outputName, deepPlace, deepElements, rfl, hreached, ?_⟩
      rintro other otherLink hother hname hotherLink
      obtain rfl := (hreached.separateLevel hseparate htable).child_eq hother hchild hname
      obtain rfl := Schema.linkBetween_unique hlink hotherLink
      exact hdeferred

theorem eq_of_prefix (hseparate : Separate schema bucket)
    (htable : place.tableName = bucket.name) (hfirst : Site schema place bucket.elements first)
    (hsecond : Site schema place bucket.elements second) (habove : first <+: second) :
    first = second := by
  obtain ⟨path, name, deepPlace, deepElements, rfl, hreached, hends⟩ :=
    hfirst.ends hseparate htable
  obtain ⟨otherPath, otherName, otherPlace, otherElements, rfl, hother, -⟩ :=
    hsecond.ends hseparate htable
  rcases List.prefix_concat_iff.mp habove with hsame | ⟨rest, rfl⟩
  · exact hsame
  · -- the second place would go on below the first, through a joined bucket
    rw [List.append_assoc] at hother
    obtain ⟨middlePlace, middleElements, hmiddle, hbelow⟩ := hother.split
    obtain ⟨rfl, rfl⟩ := hreached.unique hseparate hmiddle
    obtain ⟨child, link, hchild, hname, hlink, hjoined, -⟩ := hbelow.cons_inv
    rw [hends child link hchild hname hlink] at hjoined
    cases hjoined

/-- Different sites are apart. -/
theorem apart (hseparate : Separate schema bucket) (htable : place.tableName = bucket.name)
    (hfirst : Site schema place bucket.elements first)
    (hsecond : Site schema place bucket.elements second) (hne : first ≠ second) :
    Apart first second :=
  ⟨fun habove => hne (hfirst.eq_of_prefix hseparate htable hsecond habove),
    fun habove => hne (hsecond.eq_of_prefix hseparate htable hfirst habove).symm⟩

end Site

end Session

end TreeQuery
