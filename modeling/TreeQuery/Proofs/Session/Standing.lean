import TreeQuery.Proofs.Session.Assembling

/-!
# What stands in a record

Whether a column stands in the object at a path is followed through the life of a record:
the row is written in key order, children are attached, keys are removed, and what is
empty is collapsed.  Each step changes one path only and makes no new objects.
-/

namespace TreeQuery

namespace Segments

theorem join_ofString (text : String) : join (ofString text) = text := by
  have hchars : (ofString text).map String.toList = split text.toList := by
    rw [ofString, List.map_map]
    exact (List.map_congr_left fun _ _ => String.toList_ofList).trans (List.map_id _)
  apply String.toList_inj.mp
  rw [toList_join, hchars, intercalate_split]

/-- Segments that go on behind those of a text do not come before it in key order. -/
theorem not_join_lt_of_prefix {text : String} {segments : List String}
    (habove : ofString text <+: segments) : ¬ join segments < text := by
  obtain ⟨rest, rfl⟩ := habove
  have hprefix : text.toList <+: (join (ofString text ++ rest)).toList := by
    induction rest using List.reverseRecOn with
    | nil => rw [List.append_nil, join_ofString]
    | append_singleton rest name ih =>
        have hne : ofString text ++ rest ≠ [] :=
          List.append_ne_nil_of_left_ne_nil (ofString_ne_nil text) rest
        rw [← List.append_assoc, join_concat hne, String.toList_append, String.toList_append,
          List.append_assoc]
        exact ih.trans (List.prefix_append _ _)
  obtain ⟨behind, hbehind⟩ := hprefix
  rw [String.lt_iff_toList_lt, ← hbehind, List.not_lt]
  exact List.le_append_left

end Segments

namespace Record

theorem get?_erase_self (key : String) (record : Record) : (erase key record).get? key = none := by
  rw [erase_eq_filter, get?, List.lookup_eq_none_iff]
  intro field hfield
  simpa using Ne.symm (of_decide_eq_true (List.mem_filter.mp hfield).2)

/-! ## Writing a row -/

/-- Writing takes away only what stands below the place that is written. -/
theorem isSome_at?_insertAt {path other : List String} {record : Record} (value : Json)
    (habove : ¬ path <+: other) (hfound : ((Json.object record).at? other).isSome) :
    ((Json.object (insertAt path value record)).at? other).isSome := by
  by_cases hbelow : other <+: path
  · obtain ⟨rest, rfl⟩ := hbelow
    have hpath : other ++ rest ≠ [] := by
      intro hnil
      exact habove (hnil ▸ List.nil_prefix)
    have hwritten := at?_insertAt_self hpath value record
    rw [Json.at?_append] at hwritten
    obtain ⟨found, hsome, -⟩ := Option.bind_eq_some_iff.mp hwritten
    rw [hsome]
    rfl
  · rw [at?_insertAt_of_apart ⟨habove, hbelow⟩]
    exact hfound

theorem isSome_at?_foldl_insertAt {fields : List (String × Json)} {other : List String}
    (habove : ∀ field ∈ fields, ¬ Segments.ofString field.1 <+: other) {record : Record}
    (hfound : ((Json.object record).at? other).isSome) :
    ((Json.object (fields.foldl (fun record field =>
      insertAt (Segments.ofString field.1) field.2 record) record)).at? other).isSome := by
  induction fields generalizing record with
  | nil => exact hfound
  | cons field rest ih =>
      obtain ⟨hfield, hrest⟩ := List.forall_mem_cons.mp habove
      exact ih hrest (isSome_at?_insertAt _ hfield hfound)

/-- Something stands at the place of every key of a row in key order: what is written above
the place is written before. -/
theorem isSome_at?_unflatten {row : Record} (hordered : (row.map Prod.fst).Pairwise (· < ·))
    {key : String} (hkey : key ∈ row.map Prod.fst) :
    ((Json.object (unflatten row)).at? (Segments.ofString key)).isSome := by
  obtain ⟨field, hfield, rfl⟩ := List.mem_map.mp hkey
  obtain ⟨before, behind, rfl⟩ := List.append_of_mem hfield
  have hpairs := List.pairwise_map.mp hordered
  have hlater := (List.pairwise_cons.mp (List.pairwise_append.mp hpairs).2.1).1
  rw [unflatten, List.foldl_append, List.foldl_cons]
  apply isSome_at?_foldl_insertAt
  · intro next hnext habove
    have hnot := Segments.not_join_lt_of_prefix habove
    rw [Segments.join_ofString] at hnot
    exact hnot (hlater next hnext)
  · rw [at?_insertAt_self (Segments.ofString_ne_nil field.1)]
    rfl

/-! ## Columns of the object at a path -/

/-- Whether a column stands in the object at a path, if there is an object. -/
def Stands (present : Bool) (path : List String) (column : String) (record : Record) : Prop :=
  ∀ object, objectAt? path record = some object → (object.get? column).isSome = present

variable {present : Bool} {path : List String} {column : String} {record : Record}

theorem Stands.of_at? (hfound : ((Json.object record).at? (path ++ [column])).isSome) :
    Stands true path column record := by
  intro object hobject
  rw [at?_of_objectAt? hobject] at hfound
  exact hfound

theorem objectAt?_cons_of_get? {key : String} {rest : List String} {fields : Record}
    (hfields : record.get? key = some (.object fields)) :
    objectAt? (key :: rest) record = objectAt? rest fields := by
  rw [objectAt?, hfields]
  rfl

theorem exists_fields {key : String} {rest : List String} {object : Record}
    (hobject : objectAt? (key :: rest) record = some object) :
    ∃ fields, record.get? key = some (.object fields) ∧ objectAt? rest fields = some object := by
  rw [objectAt?] at hobject
  obtain ⟨value, hvalue, hobject⟩ := Option.bind_eq_some_iff.mp hobject
  cases value with
  | object fields => exact ⟨fields, hvalue, hobject⟩
  | _ => cases hobject

/-- A change at one path, which makes no new objects, keeps a column of another. -/
theorem Stands.updateAt {change : Record → Record} {other : List String}
    (hcolumn : other = path → ∀ object : Record, (object.get? column).isSome = present →
      ((change object).get? column).isSome = present)
    (hobjects : ∀ (object : Record) key fields, (change object).get? key = some (.object fields) →
      object.get? key = some (.object fields))
    (hstands : Stands present path column record) :
    Stands present path column (updateAt change other record) := by
  induction other generalizing path record with
  | nil =>
      intro object hobject
      cases path with
      | nil =>
          obtain rfl := Option.some.inj hobject
          exact hcolumn rfl record (hstands record rfl)
      | cons head tail =>
          obtain ⟨fields, hfields, hdeep⟩ := exists_fields hobject
          apply hstands
          rw [objectAt?_cons_of_get? (hobjects record head fields hfields), hdeep]
  | cons key rest ih =>
      by_cases hfields : ∃ fields, record.get? key = some (.object fields)
      · obtain ⟨fields, hfields⟩ := hfields
        rw [updateAt_cons_object hfields]
        cases path with
        | nil =>
            intro object hobject
            obtain rfl := Option.some.inj hobject
            have hbefore := hstands record rfl
            by_cases hkey : column = key
            · subst hkey
              rw [get?_insert_self, ← hbefore, hfields]
              rfl
            · rw [get?_insert_of_ne hkey, hbefore]
        | cons head tail =>
            intro object hobject
            by_cases hhead : head = key
            · subst hhead
              have hbelow : Stands present tail column fields := by
                intro inner hinner
                apply hstands
                rw [objectAt?_cons_of_get? hfields, hinner]
              rw [objectAt?_cons_of_get? (get?_insert_self _ _ _)] at hobject
              exact ih (fun hsame => hcolumn (congrArg (head :: ·) hsame)) hbelow object hobject
            · apply hstands
              rw [objectAt?, get?_insert_of_ne hhead] at hobject
              exact hobject
      · rw [updateAt_cons_other (not_exists.mp hfields)]
        exact hstands

theorem objectAt?_updateAt (change : Record → Record) (path : List String) (record : Record) :
    objectAt? path (Record.updateAt change path record) = (objectAt? path record).map change := by
  induction path generalizing record with
  | nil => rfl
  | cons key rest ih =>
      by_cases hfields : ∃ fields, record.get? key = some (.object fields)
      · obtain ⟨fields, hfields⟩ := hfields
        rw [updateAt_cons_object hfields, objectAt?_cons_of_get? (get?_insert_self _ _ _),
          objectAt?_cons_of_get? hfields, ih]
      · rw [updateAt_cons_other (not_exists.mp hfields)]
        cases hobject : objectAt? (key :: rest) record with
        | none => rfl
        | some object =>
            obtain ⟨fields, hkey, -⟩ := exists_fields hobject
            exact absurd ⟨fields, hkey⟩ hfields

theorem Stands.collapse (hstands : Stands present path column record) :
    Stands present path column (collapse record) := by
  induction path generalizing record with
  | nil =>
      intro object hobject
      obtain rfl := Option.some.inj hobject
      rw [Record.collapse, get?_collapseFields, Option.isSome_map]
      exact hstands record rfl
  | cons key rest ih =>
      intro object hobject
      obtain ⟨fields, hfields, hdeep⟩ := exists_fields hobject
      rw [Record.collapse, get?_collapseFields] at hfields
      obtain ⟨value, hvalue, hcollapsed⟩ := Option.map_eq_some_iff.mp hfields
      cases value with
      | object inner =>
          rw [collapseValue] at hcollapsed
          split at hcollapsed
          · cases hcollapsed
          · obtain rfl := Json.object.inj hcollapsed
            have hbelow : Stands present rest column inner := by
              intro object hobject
              apply hstands
              rw [objectAt?_cons_of_get? hvalue, hobject]
            exact ih hbelow object hdeep
      | _ => cases hcollapsed

theorem stands_false_iff :
    Stands false path column record ↔ (Json.object record).at? (path ++ [column]) = none := by
  constructor
  · intro hstands
    cases hfound : (Json.object record).at? (path ++ [column]) with
    | none => rfl
    | some found =>
        obtain ⟨object, hobject, hsome⟩ := exists_objectAt? hfound
        have hnone := hstands object hobject
        rw [hsome] at hnone
        cases hnone
  · intro hnone object hobject
    rw [at?_of_objectAt? hobject] at hnone
    rw [hnone]
    rfl

/-- What is written elsewhere, and is no object, does not make a column. -/
theorem Stands.insertAt {other : List String} {value : Json} (hscalar : value.isScalar = true)
    (hother : ¬ path ++ [column] <+: other) (hstands : Stands false path column record) :
    Stands false path column (insertAt other value record) := by
  rw [stands_false_iff] at hstands ⊢
  by_cases habove : other <+: path ++ [column]
  · obtain ⟨rest, hrest⟩ := habove
    by_cases hroot : other = []
    · subst hroot
      exact hstands
    · rw [← hrest, Json.at?_append, at?_insertAt_self hroot, Option.bind_some]
      cases rest with
      | nil =>
          rw [List.append_nil] at hrest
          exact absurd (hrest ▸ List.prefix_rfl) hother
      | cons key rest =>
          cases value with
          | object fields => cases hscalar
          | _ => rfl
  · rw [at?_insertAt_of_apart ⟨habove, hother⟩]
    exact hstands

theorem Stands.unflatten {row : Record} (hscalars : ∀ field ∈ row, field.2.isScalar = true)
    (hothers : ∀ field ∈ row, ¬ path ++ [column] <+: Segments.ofString field.1) :
    Stands false path column (unflatten row) := by
  have hfold : ∀ (fields : List (String × Json)) (start : Record),
      (∀ field ∈ fields, field.2.isScalar = true) →
      (∀ field ∈ fields, ¬ path ++ [column] <+: Segments.ofString field.1) →
      Stands false path column start →
        Stands false path column (fields.foldl (fun record field =>
          Record.insertAt (Segments.ofString field.1) field.2 record) start) := by
    intro fields
    induction fields with
    | nil => exact fun _ _ _ hstart => hstart
    | cons field rest ih =>
        intro start hscalars hothers hstart
        obtain ⟨hscalar, hscalars⟩ := List.forall_mem_cons.mp hscalars
        obtain ⟨hother, hothers⟩ := List.forall_mem_cons.mp hothers
        exact ih _ hscalars hothers (hstart.insertAt hscalar hother)
  apply hfold row [] hscalars hothers
  rw [stands_false_iff]
  cases path <;> rfl

end Record

namespace Session

open Catalog (Link Memo Schema)

variable {schema : Schema} {place deepPlace : Path} {path requested : List String}
  {elements others deepElements : List Element} {findings found : Findings} {column : String}
  {record : Record}

/-! ## Attaching and removing -/

theorem attach_stands {present : Bool} {deferred : Deferred} (children : Children)
    (hfield : deferred.path = path → deferred.field = column → present = true)
    (hstands : record.Stands present path column) :
    (attach deferred children record).Stands present path column := by
  apply hstands.updateAt
  · intro hpath object hcolumn
    split
    · exact hcolumn
    · by_cases hsame : deferred.field = column
      · rw [← hsame, Record.get?_insert_self, hfield hpath hsame]
        rfl
      · rw [Record.get?_insert_of_ne (Ne.symm hsame), hcolumn]
  · intro object key fields hfields
    split at hfields
    · exact hfields
    · by_cases hkey : key = deferred.field
      · rw [hkey, Record.get?_insert_self] at hfields
        cases hfields
      · rwa [Record.get?_insert_of_ne hkey] at hfields

theorem removeKey_stands {present : Bool} {key : AddedKey}
    (hkey : key = ⟨path, column⟩ → present = false) (hstands : record.Stands present path column) :
    (removeKey record key).Stands present path column := by
  apply hstands.updateAt
  · intro hpath object hcolumn
    by_cases hsame : column = key.column
    · rw [hsame, Record.get?_erase_self, hkey (by rw [hsame, ← hpath])]
      rfl
    · rw [Record.get?_erase_of_ne hsame, hcolumn]
  · intro object other fields hfields
    by_cases hother : other = key.column
    · rw [hother, Record.get?_erase_self] at hfields
      cases hfields
    · rwa [Record.get?_erase_of_ne hother] at hfields

theorem removeKey_stands_self (record : Record) (path : List String) (column : String) :
    (removeKey record ⟨path, column⟩).Stands false path column := by
  intro object hobject
  rw [removeKey, Record.objectAt?_updateAt] at hobject
  obtain ⟨parent, -, rfl⟩ := Option.map_eq_some_iff.mp hobject
  rw [Record.get?_erase_self]
  rfl

theorem foldl_attach_stands {present : Bool} {entries : List (Deferred × Children)}
    (hfields : ∀ entry ∈ entries, entry.1.path = path → entry.1.field = column → present = true)
    (hstands : record.Stands present path column) :
    (entries.foldl (fun record entry => attach entry.1 entry.2 record) record).Stands present path
      column := by
  induction entries generalizing record with
  | nil => exact hstands
  | cons entry rest ih =>
      obtain ⟨hentry, hrest⟩ := List.forall_mem_cons.mp hfields
      exact ih hrest (attach_stands entry.2 hentry hstands)

theorem foldl_removeKey_stands {present : Bool} {added : List AddedKey}
    (hkeys : ⟨path, column⟩ ∈ added → present = false)
    (hstands : record.Stands present path column) :
    (added.foldl removeKey record).Stands present path column := by
  induction added generalizing record with
  | nil => exact hstands
  | cons key rest ih =>
      apply ih fun hmem => hkeys (List.mem_cons_of_mem _ hmem)
      apply removeKey_stands _ hstands
      rintro rfl
      exact hkeys List.mem_cons_self

/-- A column that stands in a record still stands in the nested one, unless its key is
removed there. -/
theorem nest_stands {present : Bool} (reader : Reader) (children : List Children)
    (hfields : ∀ deferred ∈ found.deferred,
      deferred.path = path → deferred.field = column → present = true)
    (hadded : ⟨path, column⟩ ∈ found.added → present = false)
    (hstands : record.Stands present path column) :
    (reader.nest found children record).Stands present path column := by
  have hcleaned : (found.added.foldl removeKey ((found.deferred.zip children).foldl
      (fun record entry => attach entry.1 entry.2 record) record)).Stands present path column := by
    apply foldl_removeKey_stands hadded
    apply foldl_attach_stands _ hstands
    exact fun entry hentry => hfields entry.1 (List.of_mem_zip hentry).1
  rw [Reader.nest]
  split
  · exact hcleaned.collapse
  · exact hcleaned

theorem nest_stands_of_added (reader : Reader) (children : List Children) (record : Record)
    (hadded : ⟨path, column⟩ ∈ found.added) :
    (reader.nest found children record).Stands false path column := by
  have hremoved : ∀ record : Record,
      (found.added.foldl removeKey record).Stands false path column := by
    intro record
    obtain ⟨before, behind, hsplit⟩ := List.append_of_mem hadded
    rw [hsplit, List.foldl_append, List.foldl_cons]
    exact foldl_removeKey_stands (fun _ => rfl) (removeKey_stands_self _ path column)
  rw [Reader.nest]
  split
  · exact (hremoved _).collapse
  · exact hremoved _

end Session

end TreeQuery
