import Mathlib
import TreeQuery.Session.Nesting

/-!
# Values in nested records

A value stands in a nested record at a list of keys.  Writing, changing and removing
at one place leaves every place alone that is neither above nor below it.  Collapsing
keeps every value that does not itself become null.
-/

namespace TreeQuery

/-- The value at a list of keys, through nested objects. -/
def Json.at? : List String → Json → Option Json
  | [], value => some value
  | key :: rest, .object fields => (Record.get? fields key).bind (at? rest)
  | _ :: _, _ => none

/-- Neither place is above the other. -/
def Apart (first second : List String) : Prop :=
  ¬ first <+: second ∧ ¬ second <+: first

theorem Apart.symm {first second : List String} (hapart : Apart first second) :
    Apart second first :=
  ⟨hapart.2, hapart.1⟩

theorem Apart.tail {key : String} {first second : List String}
    (hapart : Apart (key :: first) (key :: second)) : Apart first second :=
  ⟨fun habove => hapart.1 (List.cons_prefix_cons.mpr ⟨rfl, habove⟩),
    fun habove => hapart.2 (List.cons_prefix_cons.mpr ⟨rfl, habove⟩)⟩

theorem Apart.ne_nil {first second : List String} (hapart : Apart first second) :
    first ≠ [] := by
  rintro rfl
  exact hapart.1 (List.nil_prefix)

theorem Segments.ofString_ne_nil (text : String) : ofString text ≠ [] := by
  simpa [ofString] using split_ne_nil text.toList

namespace Json

theorem at?_cons (key : String) (rest : List String) (fields : Record) :
    (Json.object fields).at? (key :: rest) = (fields.get? key).bind (at? rest) := rfl

theorem at?_append (path rest : List String) (value : Json) :
    value.at? (path ++ rest) = (value.at? path).bind (at? rest) := by
  induction path generalizing value with
  | nil => rfl
  | cons key path ih =>
      cases value with
      | object fields =>
          rw [List.cons_append, at?_cons, at?_cons, Option.bind_assoc]
          congr 1
          funext inner
          exact ih inner
      | _ => rfl

/-- A value with something other than null in it is not null. -/
theorem isNull_of_at? {path : List String} {value found : Json}
    (hfound : value.at? path = some found) (hnull : found.isNull = false) :
    value.isNull = false := by
  cases value with
  | null =>
      cases path with
      | nil =>
          obtain rfl := Option.some.inj hfound
          exact hnull
      | cons key rest => cases hfound
  | _ => rfl

end Json

namespace Record

theorem mem_of_get? {record : Record} {key : String} {value : Json}
    (hvalue : record.get? key = some value) : (key, value) ∈ record := by
  rw [get?, List.lookup_eq_some_iff] at hvalue
  obtain ⟨before, behind, rfl, -⟩ := hvalue
  exact List.mem_append_right _ List.mem_cons_self

theorem exists_get?_of_mem {record : Record} {key : String} (hkey : key ∈ record.map Prod.fst) :
    ∃ value, record.get? key = some value := by
  cases hvalue : record.get? key with
  | none =>
      obtain ⟨field, hfield, rfl⟩ := List.mem_map.mp hkey
      have hmissing := List.lookup_eq_none_iff.mp hvalue field hfield
      simp at hmissing
  | some value => exact ⟨value, rfl⟩

theorem get?_of_mem {record : Record} {key : String} {value : Json}
    (hnodup : (record.map Prod.fst).Nodup) (hfield : (key, value) ∈ record) :
    record.get? key = some value := by
  obtain ⟨found, hfound⟩ := exists_get?_of_mem (List.mem_map_of_mem hfield)
  have hsame := List.inj_on_of_nodup_map hnodup (mem_of_get? hfound) hfield rfl
  rw [hfound, (Prod.mk.inj hsame).2]

theorem get?_erase_of_ne {key sought : String} (hne : sought ≠ key) (record : Record) :
    (erase key record).get? sought = record.get? sought := by
  induction record with
  | nil => rfl
  | cons field rest ih =>
      obtain ⟨other, stored⟩ := field
      rw [get?] at ih
      by_cases hsame : key = other
      · subst hsame
        rw [erase, if_pos rfl, get?, get?, ih, get?, List.lookup,
          beq_eq_false_iff_ne.mpr hne]
      · rw [erase, if_neg hsame, get?, get?, List.lookup, List.lookup, ih, get?]

/-- The object at a place is the value there, if that is an object. -/
theorem objectAt?_eq_at? (path : List String) (record : Record) :
    objectAt? path record = ((Json.object record).at? path).bind Json.fields? := by
  induction path generalizing record with
  | nil => rfl
  | cons key rest ih =>
      rw [Json.at?_cons, objectAt?]
      cases hvalue : record.get? key with
      | none => rfl
      | some value =>
          cases value with
          | object fields => exact ih fields
          | _ => cases rest <;> rfl

/-- A value below a place makes the place an object. -/
theorem exists_objectAt? {path : List String} {key : String} {record : Record} {value : Json}
    (hvalue : (Json.object record).at? (path ++ [key]) = some value) :
    ∃ inner, objectAt? path record = some inner ∧ inner.get? key = some value := by
  rw [Json.at?_append] at hvalue
  obtain ⟨inner, hinner, hkey⟩ := Option.bind_eq_some_iff.mp hvalue
  cases inner with
  | object fields =>
      refine ⟨fields, ?_, ?_⟩
      · rw [objectAt?_eq_at?, hinner]
        rfl
      · rw [Json.at?_cons] at hkey
        obtain ⟨found, hfound, hsame⟩ := Option.bind_eq_some_iff.mp hkey
        exact hfound.trans hsame
  | _ => cases hkey

theorem at?_of_objectAt? {path : List String} {key : String} {record inner : Record}
    (hinner : objectAt? path record = some inner) :
    (Json.object record).at? (path ++ [key]) = inner.get? key := by
  rw [objectAt?_eq_at?] at hinner
  obtain ⟨found, hfound, hfields⟩ := Option.bind_eq_some_iff.mp hinner
  cases found with
  | object fields =>
      obtain rfl := Option.some.inj hfields
      rw [Json.at?_append, hfound, Option.bind_some, Json.at?_cons]
      cases Record.get? fields key <;> rfl
  | _ => cases hfields

/-! ## Writing -/

/-- Below a place, the object that writing starts from holds what the value there
holds. -/
theorem fields_at? (value : Option Json) {path : List String} (hpath : path ≠ []) :
    (Json.object ((value.bind Json.fields?).getD [])).at? path = value.bind (Json.at? path) := by
  obtain ⟨key, rest, rfl⟩ := List.exists_cons_of_ne_nil hpath
  cases value with
  | none => rfl
  | some value => cases value <;> rfl

theorem at?_insertAt_self {path : List String} (hpath : path ≠ []) (value : Json)
    (record : Record) : (Json.object (insertAt path value record)).at? path = some value := by
  induction path generalizing record with
  | nil => exact absurd rfl hpath
  | cons key rest ih =>
      cases rest with
      | nil =>
          rw [insertAt, Json.at?_cons, get?_insert_self]
          rfl
      | cons next rest =>
          rw [insertAt, Json.at?_cons, get?_insert_self]
          · exact ih (List.cons_ne_nil _ _) _
          · exact nofun

theorem at?_insertAt_of_apart {path other : List String} (hapart : Apart path other)
    (value : Json) (record : Record) :
    (Json.object (insertAt path value record)).at? other = (Json.object record).at? other := by
  induction path generalizing other record with
  | nil => exact absurd rfl hapart.ne_nil
  | cons key rest ih =>
      obtain ⟨head, tail, rfl⟩ := List.exists_cons_of_ne_nil hapart.symm.ne_nil
      rw [Json.at?_cons, Json.at?_cons]
      by_cases hhead : head = key
      · subst hhead
        have htail : tail ≠ [] := hapart.tail.symm.ne_nil
        cases rest with
        | nil => exact absurd rfl hapart.tail.ne_nil
        | cons next rest =>
            rw [insertAt, get?_insert_self, Option.bind_some, ih hapart.tail, fields_at? _ htail]
            exact nofun
      · cases rest with
        | nil => rw [insertAt, get?_insert_of_ne hhead]
        | cons next rest =>
            rw [insertAt, get?_insert_of_ne hhead]
            exact nofun

/-! ## Changing -/

variable {change : Record → Record} {path other : List String} {record : Record}

theorem updateAt_cons_object {key : String} {rest : List String} {fields : Record}
    (hfields : record.get? key = some (.object fields)) :
    updateAt change (key :: rest) record =
      record.insert key (.object (updateAt change rest fields)) := by
  rw [updateAt, hfields]

theorem updateAt_cons_other {key : String} {rest : List String}
    (hfields : ∀ fields, record.get? key ≠ some (.object fields)) :
    updateAt change (key :: rest) record = record := by
  rw [updateAt]
  split
  · next fields hsome => exact absurd hsome (hfields fields)
  · rfl

/-- The object at a place is changed. -/
theorem objectAt?_updateAt_self {parent : Record} (hparent : objectAt? path record = some parent) :
    objectAt? path (updateAt change path record) = some (change parent) := by
  induction path generalizing record with
  | nil =>
      obtain rfl := Option.some.inj hparent
      rfl
  | cons step path ih =>
      rw [objectAt?] at hparent
      obtain ⟨value, hvalue, hparent⟩ := Option.bind_eq_some_iff.mp hparent
      cases value with
      | object fields =>
          rw [updateAt_cons_object hvalue, objectAt?, get?_insert_self]
          exact ih hparent
      | _ => cases hparent

/-- A change of one key of the object at a place is noticed at that key only. -/
theorem at?_updateAt_of_apart {key : String}
    (hchange : ∀ (inner : Record) (sought : String), sought ≠ key →
      (change inner).get? sought = inner.get? sought)
    (hapart : Apart (path ++ [key]) other) :
    (Json.object (updateAt change path record)).at? other = (Json.object record).at? other := by
  induction path generalizing other record with
  | nil =>
      obtain ⟨head, tail, rfl⟩ := List.exists_cons_of_ne_nil hapart.symm.ne_nil
      have hhead : head ≠ key := by
        rintro rfl
        exact hapart.1 ⟨tail, rfl⟩
      rw [updateAt, Json.at?_cons, Json.at?_cons, hchange record head hhead]
  | cons step path ih =>
      obtain ⟨head, tail, rfl⟩ := List.exists_cons_of_ne_nil hapart.symm.ne_nil
      by_cases hobject : ∃ fields, record.get? step = some (.object fields)
      · obtain ⟨fields, hfields⟩ := hobject
        rw [updateAt_cons_object hfields, Json.at?_cons, Json.at?_cons]
        by_cases hhead : head = step
        · subst hhead
          rw [get?_insert_self, hfields, Option.bind_some, Option.bind_some]
          exact ih hapart.tail
        · rw [get?_insert_of_ne hhead]
      · rw [updateAt_cons_other (not_exists.mp hobject)]

/-! ## Unflattening -/

/-- Fields with places apart from a place leave it alone. -/
theorem at?_foldl_insertAt {place : List String} {fields : List (String × Json)}
    (hfields : ∀ field ∈ fields, Apart (Segments.ofString field.1) place) (record : Record) :
    (Json.object (fields.foldl (fun record field =>
      insertAt (Segments.ofString field.1) field.2 record) record)).at? place =
        (Json.object record).at? place := by
  induction fields generalizing record with
  | nil => rfl
  | cons field rest ih =>
      obtain ⟨hfield, hrest⟩ := List.forall_mem_cons.mp hfields
      rw [List.foldl_cons, ih hrest, at?_insertAt_of_apart hfield]

/-- A value stands at its place if all later places are apart from it. -/
theorem at?_unflatten_of_later {before behind : List (String × Json)} {key : String}
    (hbehind : ∀ field ∈ behind, Apart (Segments.ofString field.1) (Segments.ofString key))
    (value : Json) :
    (Json.object (unflatten (before ++ (key, value) :: behind))).at? (Segments.ofString key) =
      some value := by
  rw [unflatten, List.foldl_append, List.foldl_cons, at?_foldl_insertAt hbehind]
  exact at?_insertAt_self (Segments.ofString_ne_nil key) value _

/-- Every value of a row stands at its place, if the places of the row are apart. -/
theorem at?_unflatten {row : Record}
    (hapart : row.Pairwise fun first second =>
      Apart (Segments.ofString first.1) (Segments.ofString second.1))
    {key : String} {value : Json} (hmem : (key, value) ∈ row) :
    (Json.object (unflatten row)).at? (Segments.ofString key) = some value := by
  obtain ⟨before, behind, rfl⟩ := List.append_of_mem hmem
  apply at?_unflatten_of_later
  intro field hfield
  have hbehind := (List.pairwise_append.mp hapart).2.1
  exact ((List.pairwise_cons.mp hbehind).1 field hfield).symm

/-! ## Collapsing -/

theorem get?_collapseFields (record : Record) (key : String) :
    Record.get? (collapseFields record) key = (record.get? key).map collapseValue := by
  induction record with
  | nil => rfl
  | cons field rest ih =>
      obtain ⟨other, value⟩ := field
      rw [get?, get?] at ih
      rw [collapseFields, get?, get?, List.lookup, List.lookup]
      split
      · rfl
      · exact ih

/-- An object stays one when a field of it does not become null. -/
theorem collapseValue_object {fields : Record} {key : String} {value : Json}
    (hvalue : fields.get? key = some value) (hnull : (collapseValue value).isNull = false) :
    collapseValue (.object fields) = .object (collapseFields fields) := by
  have hcollapsed : Record.get? (collapseFields fields) key = some (collapseValue value) := by
    rw [get?_collapseFields, hvalue, Option.map_some]
  rw [collapseValue, if_neg]
  intro hall
  have hfield := List.all_eq_true.mp hall _ (mem_of_get? hcollapsed)
  rw [hnull] at hfield
  cases hfield

/-- A value that does not become null keeps its place. -/
theorem at?_collapse {value : Json} (hpath : path ≠ [])
    (hvalue : (Json.object record).at? path = some value)
    (hnull : (collapseValue value).isNull = false) :
    (Json.object (collapse record)).at? path = some (collapseValue value) := by
  induction path generalizing record with
  | nil => exact absurd rfl hpath
  | cons key rest ih =>
      rw [Json.at?_cons] at hvalue
      obtain ⟨found, hfound, hrest⟩ := Option.bind_eq_some_iff.mp hvalue
      rw [Json.at?_cons, collapse, get?_collapseFields, hfound, Option.map_some, Option.bind_some]
      cases rest with
      | nil =>
          obtain rfl := Option.some.inj hrest
          rfl
      | cons next rest =>
          cases found with
          | object fields =>
              have hbelow := ih (List.cons_ne_nil _ _) hrest
              -- what stands below does not become null, so neither does what is on the way
              have hobject : ∃ inner, Record.get? fields next = some inner ∧
                  (collapseValue inner).isNull = false := by
                rw [Json.at?_cons, collapse, get?_collapseFields] at hbelow
                obtain ⟨kept, hkept, hbelow⟩ := Option.bind_eq_some_iff.mp hbelow
                obtain ⟨inner, hinner, rfl⟩ := Option.map_eq_some_iff.mp hkept
                exact ⟨inner, hinner, Json.isNull_of_at? hbelow hnull⟩
              obtain ⟨inner, hinner, hinnerNull⟩ := hobject
              rw [collapseValue_object hinner hinnerNull]
              exact hbelow
          | _ => cases hrest

/-- Null stays where it is, unless the object it stands in is gone. -/
theorem at?_collapse_null {column : String}
    (hvalue : (Json.object record).at? (path ++ [column]) = some .null) :
    (Json.object (collapse record)).at? (path ++ [column]) = some .null ∨
      objectAt? path (collapse record) = none := by
  induction path generalizing record with
  | nil =>
      left
      rw [List.nil_append, Json.at?_cons] at hvalue ⊢
      obtain ⟨found, hfound, hsame⟩ := Option.bind_eq_some_iff.mp hvalue
      obtain rfl := Option.some.inj hsame
      rw [collapse, get?_collapseFields, hfound]
      rfl
  | cons key rest ih =>
      rw [List.cons_append, Json.at?_cons] at hvalue ⊢
      obtain ⟨found, hfound, hrest⟩ := Option.bind_eq_some_iff.mp hvalue
      rw [objectAt?, collapse, get?_collapseFields, hfound, Option.map_some]
      cases found with
      | object fields =>
          rw [collapseValue]
          split
          · exact .inr rfl
          · exact ih hrest
      | _ => cases rest <;> cases hrest

mutual

/-- Collapsing twice is collapsing once. -/
theorem collapseValue_collapseValue : ∀ value : Json,
    collapseValue (collapseValue value) = collapseValue value
  | .object fields => by
      have hfields := collapseFields_collapseFields fields
      by_cases hnull : (collapseFields fields).all fun field => field.2.isNull
      · rw [collapseValue, if_pos hnull]
        rfl
      · rw [collapseValue, if_neg hnull, collapseValue, hfields, if_neg hnull]
  | .array items => by
      rw [collapseValue, collapseValue, collapseItems_collapseItems items]
  | .null => rfl
  | .bool _ => rfl
  | .int _ => rfl
  | .float _ => rfl
  | .string _ => rfl

theorem collapseItems_collapseItems : ∀ items : List Json,
    collapseItems (collapseItems items) = collapseItems items
  | [] => rfl
  | .object fields :: rest => by
      rw [collapseItems, collapseItems, collapseFields_collapseFields fields,
        collapseItems_collapseItems rest]
  | .array _ :: rest => by
      rw [collapseItems, collapseItems, collapseItems_collapseItems rest] <;> exact nofun
  | .null :: rest => by
      rw [collapseItems, collapseItems, collapseItems_collapseItems rest] <;> exact nofun
  | .bool _ :: rest => by
      rw [collapseItems, collapseItems, collapseItems_collapseItems rest] <;> exact nofun
  | .int _ :: rest => by
      rw [collapseItems, collapseItems, collapseItems_collapseItems rest] <;> exact nofun
  | .float _ :: rest => by
      rw [collapseItems, collapseItems, collapseItems_collapseItems rest] <;> exact nofun
  | .string _ :: rest => by
      rw [collapseItems, collapseItems, collapseItems_collapseItems rest] <;> exact nofun

theorem collapseFields_collapseFields : ∀ fields : List (String × Json),
    collapseFields (collapseFields fields) = collapseFields fields
  | [] => rfl
  | (key, value) :: rest => by
      rw [collapseFields, collapseFields, collapseValue_collapseValue value,
        collapseFields_collapseFields rest]

end

theorem collapse_collapse (record : Record) : collapse (collapse record) = collapse record :=
  collapseFields_collapseFields record

/-- An object in a record that is collapsed already is collapsed itself. -/
theorem collapse_of_get? {key : String} {fields : Record} (hrecord : collapse record = record)
    (hfields : record.get? key = some (.object fields)) : collapse fields = fields := by
  have hkept : some (collapseValue (.object fields)) = some (.object fields) := by
    rw [← Option.map_some, ← hfields, ← get?_collapseFields]
    exact congrArg (Record.get? · key) hrecord
  rw [collapseValue, Option.some.injEq] at hkept
  split at hkept
  · cases hkept
  · exact Json.object.inj hkept

/-- Objects in a list that are collapsed already are kept as they are. -/
theorem collapseItems_objects {items : List Json}
    (hitems : ∀ item ∈ items, ∃ record, item = .object record ∧ collapse record = record) :
    collapseItems items = items := by
  induction items with
  | nil => rfl
  | cons item rest ih =>
      obtain ⟨⟨record, rfl, hrecord⟩, hrest⟩ := List.forall_mem_cons.mp hitems
      rw [collapseItems, ih hrest]
      exact congrArg (fun fields => Json.object fields :: rest) hrecord

theorem collapse_erase (key : String) (record : Record) :
    collapse (record.erase key) = (collapse record).erase key := by
  induction record with
  | nil => rfl
  | cons field rest ih =>
      obtain ⟨other, value⟩ := field
      rw [collapse, collapse] at ih
      by_cases hsame : key = other
      · rw [erase, if_pos hsame, collapse, collapse, collapseFields, erase, if_pos hsame, ih]
      · rw [erase, if_neg hsame, collapse, collapse, collapseFields, collapseFields, erase,
          if_neg hsame, ih]

end Record

end TreeQuery
