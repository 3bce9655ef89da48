import TreeQuery.Proofs.Session.Assembling

/-!
# Children by their keys

Parents and children meet by the text of a key.  The keys that are asked for are those of
the parents, and the children of a key are picked from the records read for them in the
order in which these came back.
-/

namespace TreeQuery.Session

variable {records : List Record} {path : List String} {column text : String}

/-! ## Keys of parents -/

theorem keyText?_eq_some {value : Json} :
    keyText? value = some text ↔ value.isNull = false ∧ value.compact = text := by
  cases value with
  | null => simp [keyText?, Json.isNull]
  | _ => simp [keyText?, Json.isNull]

/-- The entries with one more, unless its text is among them already. -/
def addDistinct (known : List (String × Json)) (entry : String × Json) : List (String × Json) :=
  if known.any fun other => other.1 == entry.1 then known else known ++ [entry]

/-- The key of the object at a path, with its text. -/
def parentKey? (path : List String) (column : String) (record : Record) :
    Option (String × Json) := do
  let value ← (← Record.objectAt? path record).get? column
  return (← keyText? value, value)

theorem parentKeys_eq (records : List Record) (path : List String) (column : String) :
    parentKeys records path column =
      ((records.filterMap (parentKey? path column)).foldl addDistinct []).map Prod.snd := rfl

/-- Of entries with the same text one stays. -/
theorem mem_foldl_addDistinct {entries known : List (String × Json)} :
    (∀ entry ∈ entries.foldl addDistinct known, entry ∈ known ∨ entry ∈ entries) ∧
      ∀ entry, entry ∈ known ∨ entry ∈ entries →
        ∃ kept ∈ entries.foldl addDistinct known, kept.1 = entry.1 := by
  induction entries generalizing known with
  | nil =>
      refine ⟨fun entry hentry => .inl hentry, fun entry hentry => ?_⟩
      exact ⟨entry, hentry.resolve_right nofun, rfl⟩
  | cons head rest ih =>
      rw [List.foldl_cons, addDistinct]
      by_cases hknown : known.any fun other => other.1 == head.1
      · rw [if_pos hknown]
        refine ⟨fun entry hentry => ?_, fun entry hentry => ?_⟩
        · exact (ih.1 entry hentry).imp_right (List.mem_cons_of_mem _)
        · rcases hentry with hentry | hentry
          · exact ih.2 entry (.inl hentry)
          · rcases List.mem_cons.mp hentry with rfl | hentry
            · obtain ⟨other, hother, hsame⟩ := List.any_eq_true.mp hknown
              obtain ⟨kept, hkept, htext⟩ := ih.2 other (.inl hother)
              exact ⟨kept, hkept, htext.trans (beq_iff_eq.mp hsame)⟩
            · exact ih.2 entry (.inr hentry)
      · rw [if_neg hknown]
        refine ⟨fun entry hentry => ?_, fun entry hentry => ?_⟩
        · rcases ih.1 entry hentry with hentry | hentry
          · rcases List.mem_append.mp hentry with hentry | hentry
            · exact .inl hentry
            · exact .inr (List.mem_singleton.mp hentry ▸ List.mem_cons_self)
          · exact .inr (List.mem_cons_of_mem _ hentry)
        · rcases hentry with hentry | hentry
          · exact ih.2 entry (.inl (List.mem_append_left _ hentry))
          · rcases List.mem_cons.mp hentry with rfl | hentry
            · exact ih.2 entry (.inl (List.mem_append_right _ (List.mem_singleton_self _)))
            · exact ih.2 entry (.inr hentry)

theorem parentKey?_eq_some {record : Record} {value : Json} :
    parentKey? path column record = some (text, value) ↔
      (Json.object record).at? (path ++ [column]) = some value ∧ value.isNull = false ∧
        value.compact = text := by
  constructor
  · intro hentry
    obtain ⟨parent, hparent, hentry⟩ := Option.bind_eq_some_iff.mp hentry
    obtain ⟨found, hfound, hentry⟩ := Option.bind_eq_some_iff.mp hentry
    obtain ⟨key, hkey, hentry⟩ := Option.bind_eq_some_iff.mp hentry
    obtain ⟨rfl, rfl⟩ := Prod.mk.inj (Option.some.inj hentry)
    exact ⟨(Record.at?_of_objectAt? hparent).trans hfound, keyText?_eq_some.mp hkey⟩
  · rintro ⟨hvalue, hkey⟩
    obtain ⟨parent, hparent, hfound⟩ := Record.exists_objectAt? hvalue
    rw [parentKey?, hparent]
    simp [hfound, keyText?_eq_some.mpr hkey]

/-- The keys asked for are keys of parents. -/
theorem at?_of_mem_parentKeys {key : Json} (hkey : key ∈ parentKeys records path column) :
    ∃ record ∈ records, (Json.object record).at? (path ++ [column]) = some key ∧
      key.isNull = false := by
  rw [parentKeys_eq] at hkey
  obtain ⟨⟨text, value⟩, hentry, rfl⟩ := List.mem_map.mp hkey
  have hmem := (mem_foldl_addDistinct.1 _ hentry).resolve_left nofun
  obtain ⟨record, hrecord, hvalue⟩ := List.mem_filterMap.mp hmem
  obtain ⟨hat, hnull, -⟩ := parentKey?_eq_some.mp hvalue
  exact ⟨record, hrecord, hat, hnull⟩

/-- Every parent with a key has its key asked for, by its text. -/
theorem exists_parentKey {record : Record} (hrecord : record ∈ records) {value : Json}
    (hvalue : (Json.object record).at? (path ++ [column]) = some value)
    (hnull : value.isNull = false) :
    ∃ key ∈ parentKeys records path column, key.compact = value.compact := by
  have hentry := parentKey?_eq_some.mpr ⟨hvalue, hnull, rfl⟩
  have hmem : (value.compact, value) ∈ records.filterMap (parentKey? path column) :=
    List.mem_filterMap.mpr ⟨record, hrecord, hentry⟩
  obtain ⟨⟨text, key⟩, hkept, htext⟩ := mem_foldl_addDistinct.2 _ (.inr hmem)
  refine ⟨key, ?_, ?_⟩
  · rw [parentKeys_eq]
    exact List.mem_map_of_mem hkept
  · have hkeptMem := (mem_foldl_addDistinct.1 _ hkept).resolve_left nofun
    obtain ⟨other, -, hother⟩ := List.mem_filterMap.mp hkeptMem
    exact (parentKey?_eq_some.mp hother).2.2.trans htext

/-! ## Children of a key -/

/-- Whether a record has the key of a text under a column. -/
def hasKey (column text : String) (record : Record) : Bool :=
  (record.get? column).bind keyText? == some text

/-- A record without its key, unless the key was asked for. -/
def withoutKey (requested : Bool) (column : String) (record : Record) : Record :=
  if requested then record else record.erase column

theorem withoutKey_collapsed {requested : Bool} {record : Record}
    (hrecord : Record.collapse record = record) :
    Record.collapse (withoutKey requested column record) = withoutKey requested column record := by
  cases requested with
  | true => exact hrecord
  | false => exact (Record.collapse_erase column record).trans (congrArg _ hrecord)

/-- The children of a text among entries that are picked from records. -/
theorem Children.of_filterMap {pick : Record → Option (String × Json)} (text : String)
    (records : List Record) :
    Children.of (records.filterMap pick) text = records.filterMap fun record =>
      (pick record).bind fun entry => if entry.1 == text then some entry.2 else none := by
  induction records with
  | nil => rfl
  | cons record rest ih =>
      rw [Children.of] at ih
      rw [Children.of, List.filterMap_cons, List.filterMap_cons, ← ih]
      cases hpick : pick record with
      | none => rfl
      | some entry =>
          rw [Option.bind_some, List.filter_cons]
          split <;> rfl

/-- One-to-many children of a key are the records that have it, in order. -/
theorem of_childrenOfRows (requested : Bool) (column text : String) (records : List Record) :
    (childrenOfRows requested column records).of text =
      (records.filter (hasKey column text)).map fun record =>
        .object (withoutKey requested column record) := by
  rw [childrenOfRows, Children.of_filterMap, ← List.filterMap_eq_map', List.filterMap_filter]
  apply List.filterMap_congr
  intro record _
  rw [hasKey]
  cases record.get? column with
  | none => rfl
  | some value =>
      cases hkey : keyText? value with
      | none => simp [hkey]
      | some key => simp [hkey, withoutKey]

theorem childrenOfRows_collapsed {requested : Bool}
    (hrecords : ∀ record ∈ records, Record.collapse record = record) :
    (childrenOfRows requested column records).Collapsed := by
  intro entry hentry
  obtain ⟨record, hrecord, hpick⟩ := List.mem_filterMap.mp hentry
  obtain ⟨value, -, hpick⟩ := Option.bind_eq_some_iff.mp hpick
  obtain ⟨key, -, hpick⟩ := Option.bind_eq_some_iff.mp hpick
  obtain rfl := Option.some.inj hpick
  exact ⟨_, rfl, withoutKey_collapsed (hrecords record hrecord)⟩

/-- The target in the record of a junction's row, without its key unless the key was asked
for.  There is none when the key did not come back. -/
def targetOf? (requested : Bool) (field targetColumn : String) (record : Record) :
    Option Json := do
  let target ← (← record.get? field).fields?
  let key ← target.get? targetColumn
  if key.isNull then none else return .object (withoutKey requested targetColumn target)

/-- Many-to-many children of a key are the targets of the records that have it. -/
theorem of_childrenOfJunction (requested : Bool) (field keyColumn targetColumn text : String)
    (records : List Record) :
    (childrenOfJunction requested field keyColumn targetColumn records).of text =
      (records.filter (hasKey keyColumn text)).filterMap
        (targetOf? requested field targetColumn) := by
  rw [childrenOfJunction, Children.of_filterMap, List.filterMap_filter]
  apply List.filterMap_congr
  intro record _
  rw [hasKey, targetOf?]
  cases record.get? keyColumn with
  | none => rfl
  | some value =>
      cases hkey : keyText? value with
      | none => simp [hkey]
      | some key =>
          cases record.get? field with
          | none => simp [hkey]
          | some found =>
              cases found with
              | object target =>
                  cases htarget : Record.get? target targetColumn with
                  | none => simp [hkey, Json.fields?, htarget]
                  | some targetKey =>
                      cases hnull : targetKey.isNull with
                      | true => simp [hkey, Json.fields?, htarget, hnull]
                      | false => simp [hkey, Json.fields?, htarget, hnull, withoutKey]
              | _ => simp [hkey, Json.fields?]

theorem childrenOfJunction_collapsed {requested : Bool} {field keyColumn : String}
    (hrecords : ∀ record ∈ records, Record.collapse record = record) :
    (childrenOfJunction requested field keyColumn column records).Collapsed := by
  intro entry hentry
  obtain ⟨record, hrecord, hpick⟩ := List.mem_filterMap.mp hentry
  obtain ⟨value, -, hpick⟩ := Option.bind_eq_some_iff.mp hpick
  obtain ⟨key, -, hpick⟩ := Option.bind_eq_some_iff.mp hpick
  obtain ⟨found, hfound, hpick⟩ := Option.bind_eq_some_iff.mp hpick
  obtain ⟨target, htarget, hpick⟩ := Option.bind_eq_some_iff.mp hpick
  obtain ⟨targetKey, -, hpick⟩ := Option.bind_eq_some_iff.mp hpick
  split at hpick
  · cases hpick
  · obtain rfl := Option.some.inj hpick
    refine ⟨_, rfl, withoutKey_collapsed ?_⟩
    cases found with
    | object fields =>
        obtain rfl := Option.some.inj htarget
        exact Record.collapse_of_get? (hrecords record hrecord) hfound
    | _ => cases htarget

end TreeQuery.Session
