import TreeQuery.Proofs.Session.Columns

/-!
# Buckets of their own

What is read later is read by a bucket of its own: one-to-many children by their key,
many-to-many children through their junction.  These buckets have plain and separate
names again, so that what holds of reading a bucket holds of reading them.
-/

namespace TreeQuery

open Catalog (ForeignKey Link Schema)

theorem withoutSuffix?_eq_some {suffix text front : String}
    (hfront : Session.withoutSuffix? suffix text = some front) : text = front ++ suffix := by
  rw [Session.withoutSuffix?] at hfront
  split at hfront
  · next hsuffix =>
      obtain rfl := Option.some.inj hfront
      obtain ⟨before, hbefore⟩ := List.isSuffixOf_iff_suffix.mp hsuffix
      apply String.toList_inj.mp
      have hlength : text.length - suffix.length = before.length := by
        rw [← String.length_toList, ← hbefore, List.length_append, String.length_toList,
          Nat.add_sub_cancel]
      rw [hlength, ← hbefore, List.take_left, String.toList_append, String.toList_ofList]
  · cases hfront

/-- The name in front of a suffix that begins with an underscore is plain. -/
theorem PlainName.of_append {front : String} {rest : List Char} {text : String}
    (hplain : PlainName text) (htext : text.toList = front.toList ++ '_' :: rest) :
    PlainName front := by
  have hne : front.toList ≠ [] := by
    intro hnil
    apply hplain.first
    rw [htext, hnil]
    rfl
  refine ⟨hne, ?_, ⟨?_, ?_⟩, ?_⟩
  · intro hcolon
    apply hplain.no_colon
    rw [htext]
    exact List.mem_append_left _ hcolon
  · intro hinfix
    apply hplain.separable.no_separator
    rw [htext]
    exact hinfix.trans (List.prefix_append _ _).isInfix
  · intro hlast
    obtain ⟨before, hbefore⟩ := List.getLast?_eq_some_iff.mp hlast
    apply hplain.separable.no_separator
    rw [htext, hbefore]
    exact ⟨before, rest, by simp⟩
  · intro hfirst
    apply hplain.first
    rw [htext, List.head?_append, hfirst]
    rfl

namespace Session

variable {schema : Schema} {child : Bucket}

theorem junctionQualifier_plain (hstep : child.step.Plain) {targetKey : String}
    (hkey : PlainName targetKey) {qualifier : String}
    (hqualifier : junctionQualifier child targetKey = some qualifier) : PlainName qualifier := by
  rw [junctionQualifier] at hqualifier
  cases hfront : withoutSuffix? "_id" targetKey with
  | some front =>
      rw [hfront] at hqualifier
      obtain rfl := Option.some.inj hqualifier
      have htext : targetKey.toList = front.toList ++ '_' :: ['i', 'd'] := by
        rw [withoutSuffix?_eq_some hfront, String.toList_append]
        rfl
      exact hkey.of_append htext
  | none =>
      rw [hfront] at hqualifier
      exact hstep.qualifier qualifier hqualifier

/-! ## Elements of these buckets -/

/-- Leaving elements out keeps the nested buckets, as long as none of them is left out. -/
theorem filterMap_bucket?_filter {keep : Element → Bool}
    (hkeep : ∀ child, keep (.bucket child) = true) (elements : List Element) :
    (elements.filter keep).filterMap ElementOf.bucket? =
      elements.filterMap ElementOf.bucket? := by
  induction elements with
  | nil => rfl
  | cons element rest ih =>
      cases element with
      | bucket child =>
          rw [List.filter_cons_of_pos (hkeep child), List.filterMap_cons, List.filterMap_cons, ih]
      | _ =>
          rw [List.filter_cons]
          split <;> exact ih

theorem filterMap_bucket?_missingColumn (requested : Bool) (column : String) :
    (missingColumn requested column).filterMap ElementOf.bucket? = [] := by
  cases requested <;> rfl

theorem mem_missingColumn {requested : Bool} {column name : String}
    (hmem : .item (.column name) ∈ missingColumn requested column) : name = column := by
  cases requested with
  | true => cases hmem
  | false => exact Item.column.inj (ElementOf.item.inj (List.mem_singleton.mp hmem))

theorem childrenBucket_buckets (child : Bucket) (keyColumn : String) (keys : List Json) :
    (childrenBucket child keyColumn keys).elements.filterMap ElementOf.bucket? =
      child.elements.filterMap ElementOf.bucket? := by
  rw [childrenBucket, List.filterMap_append, List.filterMap_append,
    filterMap_bucket?_missingColumn, countableElements, filterMap_bucket?_filter fun _ => rfl]
  simp [keyClause, ElementOf.bucket?]

/-- The target of a junction. -/
def junctionTarget (child : Bucket) (field targetKey targetColumn : String) : Bucket where
  name := child.name
  qualifier := junctionQualifier child targetKey
  label := some field
  elements := ((countableElements child).filter fun element => !element.isSlice) ++
    missingColumn (child.columns.contains targetColumn) targetColumn

theorem junctionTarget_buckets (child : Bucket) (field targetKey targetColumn : String) :
    (junctionTarget child field targetKey targetColumn).elements.filterMap ElementOf.bucket? =
      child.elements.filterMap ElementOf.bucket? := by
  rw [junctionTarget, List.filterMap_append, filterMap_bucket?_missingColumn,
    filterMap_bucket?_filter fun _ => rfl, countableElements,
    filterMap_bucket?_filter fun _ => rfl, List.append_nil]

theorem junctionBucket_elements (child : Bucket)
    (field interim keyColumn targetKey targetColumn : String) (keys : List Json) :
    (junctionBucket child field interim keyColumn targetKey targetColumn keys).elements =
      [.item (.column keyColumn), keyClause keyColumn keys,
        .bucket (junctionTarget child field targetKey targetColumn)] ++
        (countableElements child).filter ElementOf.isSlice := rfl

theorem junctionBucket_buckets (child : Bucket)
    (field interim keyColumn targetKey targetColumn : String) (keys : List Json) :
    (junctionBucket child field interim keyColumn targetKey targetColumn keys).elements.filterMap
      ElementOf.bucket? = [junctionTarget child field targetKey targetColumn] := by
  have hslices : ∀ elements : List Element,
      (elements.filter ElementOf.isSlice).filterMap ElementOf.bucket? = [] := by
    intro elements
    rw [List.filterMap_eq_nil_iff]
    intro element helement
    cases element with
    | bucket child => cases (List.mem_filter.mp helement).2
    | _ => rfl
  rw [junctionBucket_elements, List.filterMap_append, hslices]
  rfl

theorem childrenBucket_hasTotal (child : Bucket) (keyColumn : String) (keys : List Json) :
    (childrenBucket child keyColumn keys).hasTotal = false := by
  have hcountable : (countableElements child).any ElementOf.isTotal = false := by
    rw [countableElements, List.any_filter, List.any_eq_false]
    intro element _
    cases element.isTotal <;> simp
  have hmissing : (missingColumn (child.columns.contains keyColumn) keyColumn).any
      ElementOf.isTotal = false := by
    cases child.columns.contains keyColumn <;> rfl
  rw [Bucket.hasTotal, childrenBucket, List.any_append, List.any_append, hcountable, hmissing]
  rfl

theorem junctionBucket_hasTotal (child : Bucket)
    (field interim keyColumn targetKey targetColumn : String) (keys : List Json) :
    (junctionBucket child field interim keyColumn targetKey targetColumn keys).hasTotal =
      false := by
  have hslices : ((countableElements child).filter ElementOf.isSlice).any ElementOf.isTotal =
      false := by
    rw [List.any_filter, List.any_eq_false]
    intro element _
    cases element <;> simp [ElementOf.isSlice, ElementOf.isTotal]
  rw [Bucket.hasTotal, junctionBucket_elements, List.any_append, hslices]
  rfl

/-- Children are read with the columns asked for and with their key. -/
theorem mem_childrenBucket {keyColumn name : String} {keys : List Json} :
    .item (.column name) ∈ (childrenBucket child keyColumn keys).elements ↔
      name ∈ child.columns ∨ name = keyColumn := by
  rw [childrenBucket, List.mem_append, List.mem_append, mem_columns, countableElements,
    List.mem_filter]
  constructor
  · rintro ((⟨hcolumn, -⟩ | hmissing) | hclause)
    · exact .inl hcolumn
    · exact .inr (mem_missingColumn hmissing)
    · simp [keyClause] at hclause
  · rintro (hcolumn | rfl)
    · exact .inl (.inl ⟨hcolumn, rfl⟩)
    · by_cases hrequested : name ∈ child.columns
      · exact .inl (.inl ⟨mem_columns.mp hrequested, rfl⟩)
      · refine .inl (.inr ?_)
        rw [missingColumn, if_neg]
        · exact List.mem_singleton_self _
        · rwa [List.contains_iff_mem]

/-- The target of a junction is read with the columns asked for and with its key. -/
theorem mem_junctionTarget {field targetKey targetColumn name : String} :
    .item (.column name) ∈ (junctionTarget child field targetKey targetColumn).elements ↔
      name ∈ child.columns ∨ name = targetColumn := by
  rw [junctionTarget, List.mem_append, mem_columns, countableElements, List.mem_filter,
    List.mem_filter]
  constructor
  · rintro (⟨⟨hcolumn, -⟩, -⟩ | hmissing)
    · exact .inl hcolumn
    · exact .inr (mem_missingColumn hmissing)
  · rintro (hcolumn | rfl)
    · exact .inl ⟨⟨hcolumn, rfl⟩, rfl⟩
    · by_cases hrequested : name ∈ child.columns
      · exact .inl ⟨⟨mem_columns.mp hrequested, rfl⟩, rfl⟩
      · right
        rw [missingColumn, if_neg]
        · exact List.mem_singleton_self _
        · rwa [List.contains_iff_mem]

/-! ## Names -/

/-- Names stay plain in a bucket with the same nested buckets, if its own step and columns
are plain. -/
theorem plain_of_buckets {bucket other : Bucket} (hplain : bucket.Plain)
    (hbuckets : other.elements.filterMap ElementOf.bucket? =
      bucket.elements.filterMap ElementOf.bucket?)
    (hstep : other.step.Plain)
    (hcolumns : ∀ name, .item (.column name) ∈ other.elements → PlainName name) :
    other.Plain := by
  intro inner hwithin
  cases hwithin with
  | self => exact ⟨hstep, hcolumns⟩
  | nested hchild hwithin =>
      rw [← mem_filterMap_bucket?, hbuckets, mem_filterMap_bucket?] at hchild
      exact hplain inner (.nested hchild hwithin)

/-- Names stay separate in a bucket of the same table with the same nested buckets. -/
theorem Separate.of_buckets {bucket other : Bucket} (hseparate : Separate schema bucket)
    (hname : other.name = bucket.name)
    (hbuckets : other.elements.filterMap ElementOf.bucket? =
      bucket.elements.filterMap ElementOf.bucket?) : Separate schema other := by
  intro inner hwithin
  cases hwithin with
  | self =>
      have hlevel := hseparate bucket .self
      constructor
      · rw [hbuckets]
        exact hlevel.siblings
      · intro nested hnested
        rw [← mem_filterMap_bucket?, hbuckets, mem_filterMap_bucket?] at hnested
        rw [hname]
        exact hlevel.columns nested hnested
  | nested hchild hwithin =>
      rw [← mem_filterMap_bucket?, hbuckets, mem_filterMap_bucket?] at hchild
      exact hseparate inner (.nested hchild hwithin)

theorem childrenBucket_plain (hchild : child.Plain) {keyColumn : String}
    (hkey : PlainName keyColumn) (keys : List Json) :
    (childrenBucket child keyColumn keys).Plain := by
  apply plain_of_buckets hchild (childrenBucket_buckets child keyColumn keys)
  · exact (hchild child .self).1.bare
  · intro name hname
    rcases mem_childrenBucket.mp hname with hcolumn | rfl
    · exact (hchild child .self).2 name (mem_columns.mp hcolumn)
    · exact hkey

theorem childrenBucket_separate (hseparate : Separate schema child) (keyColumn : String)
    (keys : List Json) : Separate schema (childrenBucket child keyColumn keys) :=
  hseparate.of_buckets rfl (childrenBucket_buckets child keyColumn keys)

theorem junctionTarget_plain (hchild : child.Plain) {field targetKey targetColumn : String}
    (hfield : PlainName field) (htargetKey : PlainName targetKey)
    (htargetColumn : PlainName targetColumn) :
    (junctionTarget child field targetKey targetColumn).Plain := by
  have hstep : child.step.Plain := (hchild child .self).1
  apply plain_of_buckets hchild (junctionTarget_buckets child field targetKey targetColumn)
  · refine ⟨hstep.name, fun qualifier hqualifier => ?_, fun label hlabel => ?_⟩
    · exact junctionQualifier_plain hstep htargetKey hqualifier
    · obtain rfl := Option.some.inj hlabel
      exact hfield
  · intro name hname
    rcases mem_junctionTarget.mp hname with hcolumn | rfl
    · exact (hchild child .self).2 name (mem_columns.mp hcolumn)
    · exact htargetColumn

theorem mem_junctionBucket {field interim keyColumn targetKey targetColumn name : String}
    {keys : List Json} :
    .item (.column name) ∈
      (junctionBucket child field interim keyColumn targetKey targetColumn keys).elements ↔
        name = keyColumn := by
  rw [junctionBucket_elements, List.mem_append, List.mem_filter]
  constructor
  · rintro (hmem | ⟨-, hslice⟩)
    · simpa [keyClause] using hmem
    · cases hslice
  · rintro rfl
    exact .inl List.mem_cons_self

theorem junctionBucket_plain (hchild : child.Plain)
    {field interim keyColumn targetKey targetColumn : String} (hfield : PlainName field)
    (hinterim : PlainName interim) (hkey : PlainName keyColumn)
    (htargetKey : PlainName targetKey) (htargetColumn : PlainName targetColumn)
    (keys : List Json) :
    (junctionBucket child field interim keyColumn targetKey targetColumn keys).Plain := by
  intro inner hwithin
  cases hwithin with
  | self =>
      refine ⟨⟨hinterim, nofun, nofun⟩, fun name hname => ?_⟩
      rw [mem_junctionBucket.mp hname]
      exact hkey
  | nested hnested hwithin =>
      rw [← mem_filterMap_bucket?, junctionBucket_buckets, List.mem_singleton] at hnested
      subst hnested
      exact junctionTarget_plain hchild hfield htargetKey htargetColumn inner hwithin

/-- The names below a junction are separate when the junction has no column of the name
under which the target is read. -/
theorem junctionBucket_separate (hseparate : Separate schema child)
    {field interim : String} (hfield : schema.hasColumn interim field = false)
    (keyColumn targetKey targetColumn : String) (keys : List Json) :
    Separate schema
      (junctionBucket child field interim keyColumn targetKey targetColumn keys) := by
  intro inner hwithin
  cases hwithin with
  | self =>
      constructor
      · rw [junctionBucket_buckets]
        exact List.nodup_singleton _
      · intro nested hnested
        rw [← mem_filterMap_bucket?, junctionBucket_buckets, List.mem_singleton] at hnested
        subst hnested
        exact hfield
  | nested hnested hwithin =>
      rw [← mem_filterMap_bucket?, junctionBucket_buckets, List.mem_singleton] at hnested
      subst hnested
      have htarget := hseparate.of_buckets
        (show (junctionTarget child field targetKey targetColumn).name = child.name from rfl)
        (junctionTarget_buckets child field targetKey targetColumn)
      exact htarget inner hwithin

/-- The step of a junction's target leads over the key that was found for the child. -/
theorem find?_junctionTarget {keys : List ForeignKey} {key : ForeignKey}
    (hkey : keys.find? (·.leadsTo child.step) = some key) (field targetColumn : String) :
    keys.find? (·.leadsTo (junctionTarget child field key.column targetColumn).step) =
      some key := by
  obtain ⟨hleads, before, behind, hkeys, hbefore⟩ := List.find?_eq_some_iff_append.mp hkey
  have hsame : ∀ other : ForeignKey, other.column = key.column →
      other.targetTable = key.targetTable → other.leadsTo child.step = true := by
    intro other hcolumn htable
    rw [ForeignKey.leadsTo] at hleads ⊢
    rw [hcolumn, htable]
    exact hleads
  have htable : key.targetTable = child.name := by
    rw [ForeignKey.leadsTo, Bool.and_eq_true, beq_iff_eq] at hleads
    exact hleads.1
  have hqualifier : (junctionTarget child field key.column targetColumn).step.qualifier =
      junctionQualifier child key.column := rfl
  have hname : (junctionTarget child field key.column targetColumn).step.name = child.name := rfl
  cases hfront : withoutSuffix? "_id" key.column with
  | none =>
      -- without the suffix the child's own qualifier counts
      rw [junctionQualifier, hfront, Option.none_or] at hqualifier
      have hleadsSame : ∀ other : ForeignKey,
          other.leadsTo (junctionTarget child field key.column targetColumn).step =
            other.leadsTo child.step := by
        intro other
        rw [ForeignKey.leadsTo, ForeignKey.leadsTo, hqualifier, hname]
        rfl
      simp only [hleadsSame]
      exact hkey
  | some front =>
      rw [junctionQualifier, hfront, Option.some_or] at hqualifier
      have hcolumn := withoutSuffix?_eq_some hfront
      have hleadsIff : ∀ other : ForeignKey,
          other.leadsTo (junctionTarget child field key.column targetColumn).step = true ↔
            other.targetTable = child.name ∧ other.column = key.column := by
        intro other
        rw [ForeignKey.leadsTo, hqualifier, hname, hcolumn, Bool.and_eq_true, beq_iff_eq,
          beq_iff_eq]
      rw [List.find?_eq_some_iff_append]
      refine ⟨(hleadsIff key).mpr ⟨htable, rfl⟩, before, behind, hkeys, fun other hother => ?_⟩
      have hmissed := hbefore other hother
      rw [Bool.not_eq_true'] at hmissed ⊢
      rw [Bool.eq_false_iff, ne_eq, hleadsIff]
      rintro ⟨hotherTable, hotherColumn⟩
      rw [hsame other hotherColumn (hotherTable.trans htable.symm)] at hmissed
      cases hmissed

/-- A junction, its keys and the key of its target have plain names, and the target is
joined to it. -/
structure ThroughJunction (schema : Schema) (child : Bucket)
    (interimSource interimTarget target : Address) : Prop where
  table : PlainName interimSource.path.tableName
  sourceKey : PlainName interimSource.name
  targetKey : PlainName interimTarget.name
  targetColumn : PlainName target.name
  joined : ∀ field, schema.linkBetween [{ name := interimSource.path.tableName }]
    (Path.child [{ name := interimSource.path.tableName }]
      (junctionTarget child field interimTarget.name target.name).step) =
        .ok (some (.manyToOne
          ⟨interimTarget.name, [{ name := interimSource.path.tableName }]⟩
          ⟨target.name, Path.child [{ name := interimSource.path.tableName }]
            (junctionTarget child field interimTarget.name target.name).step⟩))

/-- A link through a junction is made by two keys of the junction. -/
theorem throughJunction_of_link (hschema : schema.Plain) {source path : Path}
    {first second third fourth : Address}
    (hlink : schema.linkBetween source (path.child child.step) =
      .ok (some (.manyToMany first second third fourth))) :
    ThroughJunction schema child second third fourth := by
  have hrelates := Schema.linkBetween_ok hlink
  generalize hmany : Link.manyToMany first second third fourth = link at hrelates
  cases hrelates with
  | manyToOne htarget hkey => cases hmany
  | oneToMany hkey => cases hmany
  | @manyToMany interim step toSource toTarget hinterim htarget hsource hkey =>
      rw [Schema.junctionLink] at hmany
      obtain ⟨-, rfl, rfl, rfl⟩ := Link.manyToMany.inj hmany
      have hplainInterim : PlainName interim := by
        rcases hinterim with hnode | hjunction
        · exact hschema.nodes interim hnode
        · obtain ⟨junction, hmem, rfl⟩ := List.mem_map.mp hjunction
          exact hschema.junctions junction hmem
      have hplainTarget := hschema.outgoing (List.mem_of_find?_eq_some hkey)
      refine ⟨hplainInterim, (hschema.outgoing hsource).1, hplainTarget.1, hplainTarget.2,
        fun field => ?_⟩
      change schema.linkBetween [{ name := interim }] (Path.child [{ name := interim }] _) = _
      have hstep : child.step = step := by
        rw [Path.child, List.getLast?_concat] at htarget
        exact Option.some.inj htarget
      rw [← hstep] at hkey
      have hdirect : schema.manyToOne? [{ name := interim }] (Path.child [{ name := interim }]
          (junctionTarget child field toTarget.column toTarget.targetColumn).step)
          (junctionTarget child field toTarget.column toTarget.targetColumn).step =
            some (.manyToOne ⟨toTarget.column, [{ name := interim }]⟩ ⟨toTarget.targetColumn,
              Path.child [{ name := interim }]
                (junctionTarget child field toTarget.column toTarget.targetColumn).step⟩) := by
        rw [Schema.manyToOne?, Path.tableName, List.getLast?_singleton,
          find?_junctionTarget hkey field toTarget.targetColumn]
        rfl
      rw [Schema.linkBetween, Path.child, List.getLast?_singleton, List.getLast?_concat]
      rw [Path.child] at hdirect
      simp only [hdirect]
      rfl

/-- The bucket that reads a junction has plain names at every level. -/
theorem ThroughJunction.plain {second third fourth : Address}
    (hjunction : ThroughJunction schema child second third fourth) (hchild : child.Plain)
    (keys : List Json) :
    (junctionBucket child child.outputName second.path.tableName second.name third.name
      fourth.name keys).Plain :=
  junctionBucket_plain hchild (hchild child .self).1.outputName hjunction.table
    hjunction.sourceKey hjunction.targetKey hjunction.targetColumn keys

end Session

end TreeQuery
