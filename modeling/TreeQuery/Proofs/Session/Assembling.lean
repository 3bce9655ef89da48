import TreeQuery.Proofs.Session.Columns

/-!
# From rows to records

A row holds one scalar for each column of the statement.  Its record is put together in
place: children are attached and added keys removed, each at a site of its own, so that
every value asked for stays where its name says.
-/

namespace TreeQuery

/-- A value that is neither a list nor an object. -/
def Json.isScalar : Json → Bool
  | .array _ | .object _ => false
  | .null | .bool _ | .int _ | .float _ | .string _ => true

/-- A row of the given names: one scalar under each name and nothing else. -/
structure RowOf (names : List String) (row : Record) : Prop where
  nodup : (row.map Prod.fst).Nodup
  names : ∀ name, name ∈ row.map Prod.fst ↔ name ∈ names
  scalars : ∀ field ∈ row, field.2.isScalar = true

theorem Record.erase_eq_filter (key : String) (record : Record) :
    record.erase key = record.filter fun field => field.1 ≠ key := by
  induction record with
  | nil => rfl
  | cons field rest ih =>
      obtain ⟨other, value⟩ := field
      by_cases hsame : key = other
      · rw [erase, if_pos hsame, ih, List.filter_cons_of_neg]
        simp [hsame]
      · rw [erase, if_neg hsame, ih, List.filter_cons_of_pos]
        simpa using Ne.symm hsame

namespace RowOf

variable {names : List String} {row : Record}

theorem exists_get? (hrow : RowOf names row) {name : String} (hname : name ∈ names) :
    ∃ value, row.get? name = some value ∧ value.isScalar = true := by
  obtain ⟨value, hvalue⟩ := Record.exists_get?_of_mem ((hrow.names name).mpr hname)
  exact ⟨value, hvalue, hrow.scalars _ (Record.mem_of_get? hvalue)⟩

/-- Without a name of its own, a row is one of the other names. -/
theorem erase {total : String} (hrow : RowOf (names ++ [total]) row) (htotal : total ∉ names) :
    RowOf names (row.erase total) := by
  rw [Record.erase_eq_filter]
  constructor
  · have hsublist := (List.filter_sublist (p := fun field : String × Json => field.1 ≠ total)
      (l := row)).map Prod.fst
    exact hsublist.nodup hrow.nodup
  · intro name
    constructor
    · intro hname
      obtain ⟨field, hfield, rfl⟩ := List.mem_map.mp hname
      obtain ⟨hmem, hother⟩ := List.mem_filter.mp hfield
      have hall := (hrow.names field.1).mp (List.mem_map_of_mem hmem)
      rcases List.mem_append.mp hall with hnames | hlast
      · exact hnames
      · simp [List.mem_singleton.mp hlast] at hother
    · intro hname
      have hall := (hrow.names name).mpr (List.mem_append_left _ hname)
      obtain ⟨field, hfield, rfl⟩ := List.mem_map.mp hall
      have hother : field.1 ≠ total := by
        intro hsame
        exact htotal (hsame ▸ hname)
      exact List.mem_map_of_mem (List.mem_filter.mpr ⟨hfield, by simpa using hother⟩)
  · intro field hfield
    exact hrow.scalars field (List.mem_filter.mp hfield).1

end RowOf

namespace Session

open Catalog (Link Schema)

/-! ## Steps of putting a record together -/

/-- One record with all children attached and added keys removed. -/
def Reader.nest (reader : Reader) (findings : Findings) (children : List Children)
    (record : Record) : Record :=
  let attached := (findings.deferred.zip children).foldl
    (fun record entry => attach entry.1 entry.2 record) record
  let cleaned := findings.added.foldl removeKey attached
  if reader.collapses then Record.collapse cleaned else cleaned

theorem Reader.assemble_eq_map (reader : Reader) (findings : Findings) (records : List Record)
    (children : List Children) :
    reader.assemble findings records children = records.map (reader.nest findings children) := by
  have hattach : ∀ (entries : List (Deferred × Children)) (records : List Record),
      entries.foldl (fun records entry => records.map (attach entry.1 entry.2)) records =
        records.map fun record =>
          entries.foldl (fun record entry => attach entry.1 entry.2 record) record := by
    intro entries
    induction entries with
    | nil => exact fun records => (List.map_id records).symm
    | cons entry rest ih =>
        intro records
        rw [List.foldl_cons, ih, List.map_map]
        rfl
  have hnest : reader.nest findings children = fun record =>
      if reader.collapses then
        Record.collapse (findings.added.foldl removeKey ((findings.deferred.zip children).foldl
          (fun record entry => attach entry.1 entry.2 record) record))
      else findings.added.foldl removeKey ((findings.deferred.zip children).foldl
        (fun record entry => attach entry.1 entry.2 record) record) := rfl
  rw [Reader.assemble, hattach, hnest]
  cases reader.collapses with
  | true => simp [List.map_map, Function.comp_def]
  | false => simp [List.map_map, Function.comp_def]

variable {deferred : Deferred} {children : Children} {record : Record} {other : List String}

/-- Children attached at one site are not noticed at another. -/
theorem at?_attach_of_apart (hapart : Apart (deferred.path ++ [deferred.field]) other) :
    (Json.object (attach deferred children record)).at? other =
      (Json.object record).at? other := by
  apply Record.at?_updateAt_of_apart _ hapart
  intro parent sought hne
  split
  · rfl
  · exact Record.get?_insert_of_ne hne _ _

theorem keyText?_of_not_null {value : Json} (hnull : value.isNull = false) :
    keyText? value = some value.compact := by
  cases value with
  | null => cases hnull
  | _ => rfl

/-- A parent that has a key gets the children of this key. -/
theorem at?_attach_self {value : Json}
    (hvalue : (Json.object record).at? (deferred.path ++ [deferred.link.source.name]) =
      some value) (hnull : value.isNull = false) :
    (Json.object (attach deferred children record)).at? (deferred.path ++ [deferred.field]) =
      some (.array (children.of value.compact)) := by
  obtain ⟨parent, hparent, hkey⟩ := Record.exists_objectAt? hvalue
  rw [attach, Record.at?_of_objectAt? (Record.objectAt?_updateAt_self hparent), hkey,
    Option.bind_some, keyText?_of_not_null hnull]
  exact Record.get?_insert_self _ _ _

/-- A column removed at one site is not missed at another. -/
theorem at?_removeKey_of_apart {key : AddedKey} (hapart : Apart (key.path ++ [key.column]) other) :
    (Json.object (removeKey record key)).at? other = (Json.object record).at? other :=
  Record.at?_updateAt_of_apart (fun parent _ hne => Record.get?_erase_of_ne hne parent) hapart

theorem at?_foldl_attach {entries : List (Deferred × Children)}
    (hapart : ∀ entry ∈ entries, Apart (entry.1.path ++ [entry.1.field]) other) :
    (Json.object (entries.foldl (fun record entry => attach entry.1 entry.2 record) record)).at?
      other = (Json.object record).at? other := by
  induction entries generalizing record with
  | nil => rfl
  | cons entry rest ih =>
      obtain ⟨hentry, hrest⟩ := List.forall_mem_cons.mp hapart
      rw [List.foldl_cons, ih hrest, at?_attach_of_apart hentry]

theorem at?_foldl_removeKey {added : List AddedKey}
    (hapart : ∀ key ∈ added, Apart (key.path ++ [key.column]) other) :
    (Json.object (added.foldl removeKey record)).at? other = (Json.object record).at? other := by
  induction added generalizing record with
  | nil => rfl
  | cons key rest ih =>
      obtain ⟨hkey, hrest⟩ := List.forall_mem_cons.mp hapart
      rw [List.foldl_cons, ih hrest, at?_removeKey_of_apart hkey]

/-- Children that collapsing leaves alone. -/
def Children.Collapsed (children : Children) : Prop :=
  ∀ entry ∈ children, ∃ record, entry.2 = .object record ∧ Record.collapse record = record

theorem Children.collapseItems_of (hcollapsed : children.Collapsed) (text : String) :
    Record.collapseItems (children.of text) = children.of text := by
  apply Record.collapseItems_objects
  intro item hitem
  rw [Children.of] at hitem
  obtain ⟨entry, hentry, rfl⟩ := List.mem_map.mp hitem
  exact hcollapsed entry (List.mem_filter.mp hentry).1

/-- A record shows a value under a column of the object at a path.  Null may be missing
together with the object. -/
def Shows (record : Record) (path : List String) (column : String) (value : Json) : Prop :=
  (Json.object record).at? (path ++ [column]) = some value ∨
    value.isNull = true ∧ Record.objectAt? path record = none

theorem Shows.collapse {path : List String} {column : String} {value : Json}
    (hscalar : value.isScalar = true)
    (hvalue : (Json.object record).at? (path ++ [column]) = some value) :
    Shows (Record.collapse record) path column value := by
  have hkept : Record.collapseValue value = value := by
    cases value with
    | array items => cases hscalar
    | object fields => cases hscalar
    | _ => rfl
  cases hnull : value.isNull with
  | false =>
      left
      have hpath : path ++ [column] ≠ [] :=
        List.append_ne_nil_of_right_ne_nil _ (List.cons_ne_nil _ _)
      rw [Record.at?_collapse hpath hvalue (hkept.symm ▸ hnull), hkept]
  | true =>
      obtain rfl : value = .null := by
        cases value <;> first | rfl | cases hnull
      rcases Record.at?_collapse_null hvalue with hsome | hnone
      · exact .inl hsome
      · exact .inr ⟨rfl, hnone⟩

/-- Of several entries for one bucket that is read later, there is a last one. -/
theorem exists_last_entry {related : Deferred → Children → Prop} {found : List Deferred}
    {children : List Children} (hrelated : List.Forall₂ related found children)
    (hdeferred : deferred ∈ found) :
    ∃ before attached behind, found.zip children = before ++ (deferred, attached) :: behind ∧
      related deferred attached ∧ ∀ entry ∈ behind, entry.1 ≠ deferred := by
  induction hrelated with
  | nil => cases hdeferred
  | @cons head attached rest others hhead hrest ih =>
      by_cases hlater : deferred ∈ rest
      · obtain ⟨before, last, behind, hzip, hlast⟩ := ih hlater
        exact ⟨(head, attached) :: before, last, behind, by rw [List.zip_cons_cons, hzip]; rfl,
          hlast⟩
      · obtain rfl := (List.mem_cons.mp hdeferred).resolve_right hlater
        refine ⟨[], attached, rest.zip others, List.zip_cons_cons, hhead, ?_⟩
        rintro entry hentry rfl
        exact hlater (List.of_mem_zip hentry).1

/-! ## Records of a prepared bucket -/

/-- A bucket at the root of its statement, together with what preparing it has found and
the names its statement selects. -/
structure Prepared (schema : Schema) (root : Step) (bucket : Bucket) (found : Findings)
    (names : List String) : Prop where
  schemaPlain : schema.Plain
  plain : bucket.Plain
  separate : Separate schema bucket
  table : root.name = bucket.name
  names : Names schema root bucket.elements names
  deferred : ∀ deferred, deferred ∈ found.deferred ↔
    Defers schema [root] [] bucket.elements deferred
  added : ∀ key ∈ found.added, Adds schema [root] [] bucket.columns bucket.elements key

namespace Prepared

variable {schema : Schema} {root : Step} {bucket : Bucket} {found : Findings}
  {names : List String} {path : List String} {deepPlace : Path} {deepElements : List Element}
  {column : String} {row : Record}

theorem tableName (hprepared : Prepared schema root bucket found names) :
    Path.tableName [root] = bucket.name :=
  hprepared.table

theorem exists_nested (hprepared : Prepared schema root bucket found names)
    (hdeferred : deferred ∈ found.deferred) :
    ∃ deepPlace deepElements,
      Reached schema [root] bucket.elements deferred.path deepPlace deepElements ∧
      .bucket deferred.child ∈ deepElements ∧
      schema.linkBetween deepPlace (deepPlace.child deferred.child.step) =
        .ok (some deferred.link) ∧
      deferred.link.isDeferred = true ∧ deferred.field = deferred.child.outputName := by
  obtain ⟨rest, deepPlace, deepElements, hpath, hreached, hdeep⟩ :=
    ((hprepared.deferred deferred).mp hdeferred).reached
  rw [List.nil_append] at hpath
  exact ⟨deepPlace, deepElements, hpath ▸ hreached, hdeep⟩

theorem site_field (hprepared : Prepared schema root bucket found names)
    (hdeferred : deferred ∈ found.deferred) :
    Site schema [root] bucket.elements (deferred.path ++ [deferred.field]) := by
  obtain ⟨deepPlace, deepElements, hreached, hchild, hlink, hisDeferred, hfield⟩ :=
    hprepared.exists_nested hdeferred
  rw [hfield]
  exact .nested hreached hchild hlink hisDeferred

/-- An added key stands at the site of a column that was not asked for. -/
theorem exists_added (hprepared : Prepared schema root bucket found names) {key : AddedKey}
    (hkey : key ∈ found.added) :
    ∃ deepPlace deepElements,
      Reached schema [root] bucket.elements key.path deepPlace deepElements ∧
      schema.hasColumn deepPlace.tableName key.column = true ∧
      .item (.column key.column) ∉ deepElements := by
  obtain ⟨rest, deepPlace, deepElements, child, link, hpath, hreached, hchild, hlink, hdeferred,
    hcolumn, hunasked⟩ := (hprepared.added key hkey).reached fun name => mem_columns.mpr
  rw [List.nil_append] at hpath
  have hhas := (hprepared.names.keys _ _ _ _ _ hreached hchild hlink hdeferred).1
  rw [← hcolumn] at hhas
  exact ⟨deepPlace, deepElements, hpath ▸ hreached, hhas, hunasked⟩

theorem site_added (hprepared : Prepared schema root bucket found names) {key : AddedKey}
    (hkey : key ∈ found.added) :
    Site schema [root] bucket.elements (key.path ++ [key.column]) := by
  obtain ⟨deepPlace, deepElements, hreached, hcolumn, -⟩ := hprepared.exists_added hkey
  exact .column hreached hcolumn

theorem apart (hprepared : Prepared schema root bucket found names) {first second : List String}
    (hfirst : Site schema [root] bucket.elements first)
    (hsecond : Site schema [root] bucket.elements second) (hne : first ≠ second) :
    Apart first second :=
  hfirst.apart hprepared.separate hprepared.tableName hsecond hne

/-- No column stands where a bucket is read later. -/
theorem field_ne_column (hprepared : Prepared schema root bucket found names)
    (hdeferred : deferred ∈ found.deferred)
    (hreached : Reached schema [root] bucket.elements path deepPlace deepElements)
    (hcolumn : schema.hasColumn deepPlace.tableName column = true) :
    deferred.path ++ [deferred.field] ≠ path ++ [column] := by
  intro hsame
  obtain ⟨hpath, hname⟩ := List.append_inj' hsame rfl
  obtain ⟨place, elements, hother, hchild, -, -, hfield⟩ := hprepared.exists_nested hdeferred
  rw [hpath] at hother
  obtain ⟨rfl, rfl⟩ := hreached.unique hprepared.separate hother
  have hnone := (hreached.separateLevel hprepared.separate hprepared.tableName).columns _ hchild
  rw [← hfield, List.singleton_inj.mp hname, hcolumn] at hnone
  cases hnone

/-- One site belongs to one bucket that is read later. -/
theorem eq_of_field_eq (hprepared : Prepared schema root bucket found names)
    {first second : Deferred} (hfirst : first ∈ found.deferred)
    (hsecond : second ∈ found.deferred)
    (hsame : first.path ++ [first.field] = second.path ++ [second.field]) : first = second := by
  obtain ⟨hpath, hname⟩ := List.append_inj' hsame rfl
  obtain ⟨place, elements, hreached, hchild, hlink, -, hfield⟩ := hprepared.exists_nested hfirst
  obtain ⟨otherPlace, otherElements, hother, hotherChild, hotherLink, -, hotherField⟩ :=
    hprepared.exists_nested hsecond
  rw [← hpath] at hother
  obtain ⟨rfl, rfl⟩ := hreached.unique hprepared.separate hother
  have hlevel := hreached.separateLevel hprepared.separate hprepared.tableName
  have hnames : first.child.outputName = second.child.outputName := by
    rw [← hfield, ← hotherField, List.singleton_inj.mp hname]
  have hchildren := hlevel.child_eq hchild hotherChild hnames
  obtain ⟨firstPath, firstField, firstLink, firstChild⟩ := first
  obtain ⟨secondPath, secondField, secondLink, secondChild⟩ := second
  obtain rfl := hpath
  obtain rfl := List.singleton_inj.mp hname
  obtain rfl := hchildren
  obtain rfl := Schema.linkBetween_unique hlink hotherLink
  rfl

/-- The value of a column stands at its site in the nested row. -/
theorem at?_unflatten (hprepared : Prepared schema root bucket found names)
    (hrow : RowOf names row)
    (hreached : Reached schema [root] bucket.elements path deepPlace deepElements)
    (hcolumn : schema.hasColumn deepPlace.tableName column = true) {value : Json}
    (hvalue : row.get? (Segments.join (path ++ [column])) = some value) :
    (Json.object (Record.unflatten row)).at? (path ++ [column]) = some value := by
  have helements : PlainElements bucket.elements := .of_bucket hprepared.plain
  have hsite : ∀ field ∈ row, Site schema [root] bucket.elements (Segments.ofString field.1) ∧
      field.1 = Segments.join (Segments.ofString field.1) := by
    intro field hfield
    have hname : field.1 ∈ names := (hrow.names _).mp (List.mem_map_of_mem hfield)
    obtain ⟨other, otherPath, place, elements, hother, hhas, hjoin⟩ :=
      hprepared.names.sites field.1 hname
    have hsegments := hother.ofString_join hprepared.schemaPlain helements hhas
    rw [hjoin, hsegments]
    exact ⟨.column hother hhas, rfl⟩
  have hpairs : row.Pairwise fun first second =>
      Apart (Segments.ofString first.1) (Segments.ofString second.1) := by
    have hnodup : row.Pairwise fun first second => first.1 ≠ second.1 :=
      List.pairwise_map.mp hrow.nodup
    refine hnodup.imp_of_mem fun {first second} hfirst hsecond hne => ?_
    obtain ⟨hfirstSite, hfirstName⟩ := hsite first hfirst
    obtain ⟨hsecondSite, hsecondName⟩ := hsite second hsecond
    apply hprepared.apart hfirstSite hsecondSite
    intro hsame
    exact hne (hfirstName.trans ((congrArg Segments.join hsame).trans hsecondName.symm))
  have hfield := Record.at?_unflatten hpairs (Record.mem_of_get? hvalue)
  rw [hreached.ofString_join hprepared.schemaPlain helements hcolumn] at hfield
  exact hfield

/-- A column that was asked for is in the record of a row. -/
theorem shows_requested (hprepared : Prepared schema root bucket found names)
    (hrow : RowOf names row) (reader : Reader) (children : List Children)
    (hreached : Reached schema [root] bucket.elements path deepPlace deepElements)
    (hrequested : .item (.column column) ∈ deepElements) :
    ∃ value, row.get? (Segments.join (path ++ [column])) = some value ∧
      Shows (reader.nest found children (Record.unflatten row)) path column value := by
  obtain ⟨hcolumn, hname⟩ :=
    hprepared.names.requested path deepPlace deepElements column hreached hrequested
  obtain ⟨value, hvalue, hscalar⟩ := hrow.exists_get? hname
  refine ⟨value, hvalue, ?_⟩
  have hsite : Site schema [root] bucket.elements (path ++ [column]) := .column hreached hcolumn
  have hattached : ∀ entry ∈ found.deferred.zip children,
      Apart (entry.1.path ++ [entry.1.field]) (path ++ [column]) := by
    intro entry hentry
    have hdeferred : entry.1 ∈ found.deferred := (List.of_mem_zip hentry).1
    exact hprepared.apart (hprepared.site_field hdeferred) hsite
      (hprepared.field_ne_column hdeferred hreached hcolumn)
  have hremoved : ∀ key ∈ found.added, Apart (key.path ++ [key.column]) (path ++ [column]) := by
    intro key hkey
    apply hprepared.apart (hprepared.site_added hkey) hsite
    intro hsame
    obtain ⟨hpath, hkeyColumn⟩ := List.append_inj' hsame rfl
    obtain ⟨place, elements, hother, -, hunasked⟩ := hprepared.exists_added hkey
    rw [hpath] at hother
    obtain ⟨rfl, rfl⟩ := hreached.unique hprepared.separate hother
    rw [List.singleton_inj.mp hkeyColumn] at hunasked
    exact hunasked hrequested
  have hcleaned : (Json.object (found.added.foldl removeKey
      ((found.deferred.zip children).foldl (fun record entry => attach entry.1 entry.2 record)
        (Record.unflatten row)))).at? (path ++ [column]) = some value := by
    rw [at?_foldl_removeKey hremoved, at?_foldl_attach hattached]
    exact hprepared.at?_unflatten hrow hreached hcolumn hvalue
  rw [Reader.nest]
  split
  · exact .collapse hscalar hcleaned
  · exact .inl hcleaned

/-- A parent holds the children of its key under the name of the nested bucket, whichever
other children are attached. -/
theorem at?_nest_field (hprepared : Prepared schema root bucket found names)
    {reader : Reader} {children : List Children} {before behind : List (Deferred × Children)}
    {attached : Children} (hdeferred : deferred ∈ found.deferred)
    (hentries : found.deferred.zip children = before ++ (deferred, attached) :: behind)
    (hlast : ∀ entry ∈ behind, entry.1 ≠ deferred)
    (hcollapsed : reader.collapses = true → attached.Collapsed) (hrow : RowOf names row)
    {value : Json}
    (hvalue : row.get? (Segments.join (deferred.path ++ [deferred.link.source.name])) =
      some value) (hnull : value.isNull = false) :
    (Json.object (reader.nest found children (Record.unflatten row))).at?
      (deferred.path ++ [deferred.field]) = some (.array (attached.of value.compact)) := by
  obtain ⟨deepPlace, deepElements, hreached, hchild, hlink, hisDeferred, hfield⟩ :=
    hprepared.exists_nested hdeferred
  obtain ⟨hcolumn, -⟩ :=
    hprepared.names.keys _ _ _ _ _ hreached hchild hlink hisDeferred
  have hsite := hprepared.site_field hdeferred
  have hmem : ∀ entry ∈ before ++ (deferred, attached) :: behind, entry.1 ∈ found.deferred := by
    intro entry hentry
    rw [← hentries] at hentry
    exact (List.of_mem_zip hentry).1
  -- the key is still there when its children are attached
  have hkey : (Json.object (before.foldl (fun record entry => attach entry.1 entry.2 record)
      (Record.unflatten row))).at? (deferred.path ++ [deferred.link.source.name]) =
        some value := by
    rw [at?_foldl_attach]
    · exact hprepared.at?_unflatten hrow hreached hcolumn hvalue
    · intro entry hentry
      have hother := hmem entry (List.mem_append_left _ hentry)
      exact hprepared.apart (hprepared.site_field hother) (.column hreached hcolumn)
        (hprepared.field_ne_column hother hreached hcolumn)
  -- and nothing that is attached or removed later touches them
  have hattached : ∀ entry ∈ behind,
      Apart (entry.1.path ++ [entry.1.field]) (deferred.path ++ [deferred.field]) := by
    intro entry hentry
    have hother := hmem entry (List.mem_append_right _ (List.mem_cons_of_mem _ hentry))
    apply hprepared.apart (hprepared.site_field hother) hsite
    exact fun hsame => hlast entry hentry (hprepared.eq_of_field_eq hother hdeferred hsame)
  have hremoved : ∀ key ∈ found.added,
      Apart (key.path ++ [key.column]) (deferred.path ++ [deferred.field]) := by
    intro key hkey
    obtain ⟨place, elements, hother, hhas, -⟩ := hprepared.exists_added hkey
    exact hprepared.apart (hprepared.site_added hkey) hsite
      (hprepared.field_ne_column hdeferred hother hhas).symm
  have hcleaned : (Json.object (found.added.foldl removeKey
      ((found.deferred.zip children).foldl (fun record entry => attach entry.1 entry.2 record)
        (Record.unflatten row)))).at? (deferred.path ++ [deferred.field]) =
          some (.array (attached.of value.compact)) := by
    rw [at?_foldl_removeKey hremoved, hentries, List.foldl_append, List.foldl_cons,
      at?_foldl_attach hattached]
    exact at?_attach_self hkey hnull
  rw [Reader.nest]
  split
  · next hcollapses =>
      have hitems := Children.collapseItems_of (hcollapsed hcollapses) value.compact
      have hpath : deferred.path ++ [deferred.field] ≠ [] :=
        List.append_ne_nil_of_right_ne_nil _ (List.cons_ne_nil _ _)
      rw [Record.at?_collapse hpath hcleaned rfl, Record.collapseValue, hitems]
  · exact hcleaned

end Prepared

end Session

end TreeQuery
