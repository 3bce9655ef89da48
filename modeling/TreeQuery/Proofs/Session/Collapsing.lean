import TreeQuery.Proofs.Session.Assembling

/-!
# What collapsing replaces

Collapsing looks at what holds a value.  An object in a field becomes null when nested objects
hold nothing else, an object in a list that a field holds stays one and its fields are looked
at in turn, and what is inside of a list in a list is left alone.  So no list changes its
length, and no scalar is lost.
-/

namespace TreeQuery

/-- One turn on the way into a value: into a field of an object, or to an item of a list. -/
inductive Turn where
  | field (key : String)
  | item (index : Nat)

namespace Json

/-- The value at the end of a way through objects and lists. -/
def follow? : List Turn → Json → Option Json
  | [], value => some value
  | .field key :: rest, .object fields => (Record.get? fields key).bind (follow? rest)
  | .item index :: rest, .array items => items[index]?.bind (follow? rest)
  | _ :: _, _ => none

/-- A list, or a scalar other than null. -/
def isContent : Json → Bool
  | .null | .object _ => false
  | .bool _ | .int _ | .float _ | .string _ | .array _ => true

/-- What is found by following nested objects only. -/
inductive Reaches : Json → Json → Prop
  | refl (value : Json) : Reaches value value
  | field {fields : Record} {field : String × Json} {found : Json} (hfield : field ∈ fields)
      (hfound : Reaches field.2 found) : Reaches (.object fields) found

/-- No list and no scalar other than null is found by following nested objects. -/
def Hollow (value : Json) : Prop :=
  ∀ found, Reaches value found → found.isContent = false

variable {value found : Json} {path : List Turn}

theorem Hollow.isContent (hhollow : value.Hollow) : value.isContent = false :=
  hhollow value (.refl value)

theorem hollow_null : Json.null.Hollow := by
  intro found hreaches
  cases hreaches
  rfl

theorem hollow_object_iff {fields : Record} :
    (Json.object fields).Hollow ↔ ∀ field ∈ fields, field.2.Hollow := by
  constructor
  · intro hhollow field hfield found hfound
    exact hhollow found (.field hfield hfound)
  · intro hfields found hreaches
    cases hreaches with
    | refl => rfl
    | field hfield hfound => exact hfields _ hfield found hfound

/-- Null stands at a place, or above it. -/
def Vacant (path : List Turn) (value : Json) : Prop :=
  ∃ above, above <+: path ∧ value.follow? above = some .null

theorem follow?_field (key : String) (rest : List Turn) (fields : Record) :
    (Json.object fields).follow? (.field key :: rest) =
      (Record.get? fields key).bind (follow? rest) := rfl

theorem follow?_item (index : Nat) (rest : List Turn) (items : List Json) :
    (Json.array items).follow? (.item index :: rest) = items[index]?.bind (follow? rest) := rfl

theorem follow?_append (path rest : List Turn) (value : Json) :
    value.follow? (path ++ rest) = (value.follow? path).bind (follow? rest) := by
  induction path generalizing value with
  | nil => rfl
  | cons turn path ih =>
      have hbelow : follow? (path ++ rest) = fun inner => (inner.follow? path).bind (follow? rest) :=
        funext ih
      cases turn with
      | field key =>
          cases value with
          | object fields =>
              rw [List.cons_append, follow?_field, follow?_field, Option.bind_assoc, hbelow]
          | _ => rfl
      | item index =>
          cases value with
          | array items =>
              rw [List.cons_append, follow?_item, follow?_item, Option.bind_assoc, hbelow]
          | _ => rfl

theorem follow?_cons (turn : Turn) (rest : List Turn) (value : Json) :
    value.follow? (turn :: rest) = (value.follow? [turn]).bind (follow? rest) :=
  follow?_append [turn] rest value

/-- Where something other than null stands, null stands nowhere above. -/
theorem not_vacant_of_follow? (hfound : value.follow? path = some found)
    (hnull : found.isNull = false) : ¬ value.Vacant path := by
  rintro ⟨above, ⟨rest, rfl⟩, habove⟩
  rw [follow?_append, habove, Option.bind_some] at hfound
  cases rest with
  | nil =>
      obtain rfl := Option.some.inj hfound
      cases hnull
  | cons turn rest => cases turn <;> cases hfound

end Json

namespace Record

mutual

/-- Hollow values become null, and no others. -/
theorem isNull_collapseValue : ∀ value : Json,
    (collapseValue value).isNull = true ↔ value.Hollow
  | .object fields => by
      rw [Json.hollow_object_iff, ← all_isNull_collapseFields fields, collapseValue]
      split
      · next hnull => simpa [Json.isNull] using hnull
      · next hnull => simpa [Json.isNull] using hnull
  | .null => ⟨fun _ => Json.hollow_null, fun _ => rfl⟩
  | .array _ => ⟨nofun, fun hhollow => by cases hhollow.isContent⟩
  | .bool _ => ⟨nofun, fun hhollow => by cases hhollow.isContent⟩
  | .int _ => ⟨nofun, fun hhollow => by cases hhollow.isContent⟩
  | .float _ => ⟨nofun, fun hhollow => by cases hhollow.isContent⟩
  | .string _ => ⟨nofun, fun hhollow => by cases hhollow.isContent⟩

theorem all_isNull_collapseFields : ∀ fields : List (String × Json),
    ((collapseFields fields).all fun field => field.2.isNull) = true ↔
      ∀ field ∈ fields, field.2.Hollow
  | [] => by simp [collapseFields]
  | (key, value) :: rest => by
      rw [collapseFields, List.all_cons, Bool.and_eq_true, isNull_collapseValue value,
        all_isNull_collapseFields rest, List.forall_mem_cons]

end

theorem collapseValue_of_hollow {value : Json} (hhollow : value.Hollow) :
    collapseValue value = .null := by
  have hnull := (isNull_collapseValue value).mpr hhollow
  cases hvalue : collapseValue value with
  | null => rfl
  | _ =>
      rw [hvalue] at hnull
      cases hnull

theorem collapseValue_of_not_hollow {fields : Record} (hkept : ¬ (Json.object fields).Hollow) :
    collapseValue (.object fields) = .object (collapseFields fields) := by
  rw [Json.hollow_object_iff, ← all_isNull_collapseFields] at hkept
  rw [collapseValue, if_neg hkept]

/-! ## What holds a value -/

/-- What holds a value, as far as collapsing goes: an object, a list in a field of an object, or
a list further inside. -/
inductive Holder where
  | object
  | list
  | innerList

namespace Holder

/-- What becomes of a value, by what holds it. -/
def collapse : Holder → Json → Json
  | object, value => collapseValue value
  | list, .object fields => .object (collapseFields fields)
  | list, other => other
  | innerList, value => value

/-- What holds the value after a turn. -/
def turn : Holder → Turn → Holder
  | innerList, _ => innerList
  | object, .field _ | list, .field _ => object
  | object, .item _ => list
  | list, .item _ => innerList

/-- What holds the value at the end of a way.  The record itself is kept like an item of a
list. -/
def ofPath (path : List Turn) : Holder :=
  path.foldl turn list

theorem collapseItems_eq_map (items : List Json) :
    collapseItems items = items.map list.collapse := by
  induction items with
  | nil => rfl
  | cons item rest ih =>
      rw [List.map_cons, ← ih]
      cases item <;> rfl

variable {holder : Holder} {value found : Json} {path : List Turn}

/-- An object that is not hollow, or that no object holds, keeps its fields. -/
theorem exists_fields_collapse {fields : Record}
    (hkept : holder = object → ¬ (Json.object fields).Hollow) :
    ∃ others, holder.collapse (.object fields) = .object others ∧ ∀ key,
      Record.get? others key = (Record.get? fields key).map (holder.turn (.field key)).collapse := by
  cases holder with
  | object => exact ⟨_, collapseValue_of_not_hollow (hkept rfl), get?_collapseFields fields⟩
  | list => exact ⟨_, rfl, get?_collapseFields fields⟩
  | innerList => exact ⟨fields, rfl, fun _ => Option.map_id_apply.symm⟩

/-- A list keeps its items, whatever holds it. -/
theorem exists_items_collapse (holder : Holder) (items : List Json) :
    ∃ others, holder.collapse (.array items) = .array others ∧ others.length = items.length ∧
      ∀ index : Nat, others[index]? = items[index]?.map (holder.turn (.item index)).collapse := by
  cases holder with
  | object =>
      refine ⟨items.map list.collapse, ?_, List.length_map _, fun _ => List.getElem?_map⟩
      rw [collapse, collapseValue, collapseItems_eq_map]
  | list => exact ⟨items, rfl, rfl, fun _ => Option.map_id_apply.symm⟩
  | innerList => exact ⟨items, rfl, rfl, fun _ => Option.map_id_apply.symm⟩

/-- One turn into a value that was collapsed leads to what became of the value there before,
unless the value became null. -/
theorem follow?_collapse_cons (hkept : holder = object → ¬ value.Hollow) (next : Turn)
    (rest : List Turn) :
    (holder.collapse value).follow? (next :: rest) =
      (value.follow? [next]).bind fun inner =>
        ((holder.turn next).collapse inner).follow? rest := by
  cases value with
  | object fields =>
      obtain ⟨others, hobject, hvalues⟩ := exists_fields_collapse hkept
      rw [hobject]
      cases next with
      | field key =>
          rw [Json.follow?_field, hvalues, Json.follow?_field]
          cases Record.get? fields key <;> rfl
      | item index => rfl
  | array items =>
      obtain ⟨others, hlist, -, hvalues⟩ := holder.exists_items_collapse items
      rw [hlist]
      cases next with
      | field key => rfl
      | item index =>
          rw [Json.follow?_item, hvalues, Json.follow?_item]
          cases items[index]? <;> rfl
  | _ => cases holder <;> cases next <;> rfl

/-- Whatever a hollow value leads to is hollow, and is held by an object. -/
theorem hollow_of_follow? (hhollow : value.Hollow) (hfound : value.follow? path = some found) :
    found.Hollow ∧ path.foldl turn object = object := by
  induction path generalizing value with
  | nil =>
      obtain rfl := Option.some.inj hfound
      exact ⟨hhollow, rfl⟩
  | cons next rest ih =>
      cases next with
      | field key =>
          cases value with
          | object fields =>
              obtain ⟨inner, hinner, hrest⟩ := Option.bind_eq_some_iff.mp hfound
              exact ih (Json.hollow_object_iff.mp hhollow _ (mem_of_get? hinner)) hrest
          | _ => cases hfound
      | item index =>
          cases value with
          | array items => cases hhollow.isContent
          | _ => cases hfound

/-- A value keeps its place unless it is hollow and an object holds it. -/
theorem follow?_collapse (hfound : value.follow? path = some found)
    (hkept : path.foldl turn holder = object → ¬ found.Hollow) :
    (holder.collapse value).follow? path = some ((path.foldl turn holder).collapse found) := by
  induction path generalizing holder value with
  | nil =>
      obtain rfl := Option.some.inj hfound
      rfl
  | cons next rest ih =>
      -- a value that became null as a whole would have made what it leads to hollow as well
      have hwhole : holder = object → ¬ value.Hollow := by
        rintro rfl hhollow
        obtain ⟨hend, hheld⟩ := hollow_of_follow? hhollow hfound
        exact hkept hheld hend
      rw [Json.follow?_cons] at hfound
      obtain ⟨inner, hinner, hrest⟩ := Option.bind_eq_some_iff.mp hfound
      rw [follow?_collapse_cons hwhole, hinner]
      exact ih hrest hkept

/-- A hollow value that an object holds becomes null, by itself or with what is around it. -/
theorem vacant_collapse (hfound : value.follow? path = some found)
    (hheld : path.foldl turn holder = object) (hhollow : found.Hollow) :
    (holder.collapse value).Vacant path := by
  induction path generalizing holder value with
  | nil =>
      obtain rfl := Option.some.inj hfound
      obtain rfl := hheld
      exact ⟨[], List.nil_prefix, congrArg some (collapseValue_of_hollow hhollow)⟩
  | cons next rest ih =>
      by_cases hwhole : holder = object → ¬ value.Hollow
      · rw [Json.follow?_cons] at hfound
        obtain ⟨inner, hinner, hrest⟩ := Option.bind_eq_some_iff.mp hfound
        obtain ⟨above, habove, hnull⟩ := ih hrest hheld
        refine ⟨next :: above, List.cons_prefix_cons.mpr ⟨rfl, habove⟩, ?_⟩
        rw [follow?_collapse_cons hwhole, hinner]
        exact hnull
      · obtain ⟨rfl, hvalue⟩ := Classical.not_imp.mp hwhole
        refine ⟨[], List.nil_prefix, congrArg some (collapseValue_of_hollow ?_)⟩
        exact Classical.not_not.mp hvalue

/-- Whatever stands in a collapsed value is what became of the value at that place. -/
theorem exists_of_follow?_collapse {kept : Json}
    (hkept : (holder.collapse value).follow? path = some kept) :
    ∃ found, value.follow? path = some found ∧
      kept = (path.foldl turn holder).collapse found := by
  induction path generalizing holder value with
  | nil => exact ⟨value, rfl, (Option.some.inj hkept).symm⟩
  | cons next rest ih =>
      by_cases hwhole : holder = object → ¬ value.Hollow
      · rw [follow?_collapse_cons hwhole] at hkept
        obtain ⟨inner, hinner, hrest⟩ := Option.bind_eq_some_iff.mp hkept
        obtain ⟨found, hfound, rfl⟩ := ih hrest
        refine ⟨found, ?_, rfl⟩
        rw [Json.follow?_cons, hinner]
        exact hfound
      · obtain ⟨rfl, hvalue⟩ := Classical.not_imp.mp hwhole
        rw [collapse, collapseValue_of_hollow (Classical.not_not.mp hvalue)] at hkept
        cases next <;> cases hkept

end Holder

/-- The places of nested objects and whatever else stands in a field: a field of the record, a
field of an object in such a place, or a field of an object in a list in such a place. -/
inductive Nested : List Turn → Prop
  | top (key : String) : Nested [.field key]
  | field {path : List Turn} (hpath : Nested path) (key : String) :
      Nested (path ++ [.field key])
  | item {path : List Turn} (hpath : Nested path) (index : Nat) (key : String) :
      Nested (path ++ [.item index] ++ [.field key])

theorem Holder.ofPath_concat (path : List Turn) (next : Turn) :
    ofPath (path ++ [next]) = (ofPath path).turn next := by
  rw [ofPath, List.foldl_append]
  rfl

/-- Nested places are those that an object holds. -/
theorem nested_iff {path : List Turn} : Nested path ↔ Holder.ofPath path = .object := by
  constructor
  · intro hnested
    induction hnested with
    | top key => rfl
    | field _ key ih => rw [Holder.ofPath_concat, ih]; rfl
    | item _ index key ih => rw [Holder.ofPath_concat, Holder.ofPath_concat, ih]; rfl
  · -- an item that a list holds stands in a list in a nested place
    suffices hplace : (Holder.ofPath path = .object → Nested path) ∧
        (Holder.ofPath path = .list → path = [] ∨
          ∃ front index, path = front ++ [.item index] ∧ Nested front) from hplace.1
    induction path using List.reverseRecOn with
    | nil => exact ⟨nofun, fun _ => .inl rfl⟩
    | append_singleton path next ih =>
        obtain ⟨hobject, hlist⟩ := ih
        rw [Holder.ofPath_concat]
        cases hholder : Holder.ofPath path with
        | object =>
            have hpath := hobject hholder
            cases next with
            | field key => exact ⟨fun _ => .field hpath key, nofun⟩
            | item index => exact ⟨nofun, fun _ => .inr ⟨path, index, rfl, hpath⟩⟩
        | list =>
            cases next with
            | field key =>
                refine ⟨fun _ => ?_, nofun⟩
                rcases hlist hholder with rfl | ⟨front, index, rfl, hfront⟩
                · exact .top key
                · exact .item hfront index key
            | item index => exact ⟨nofun, nofun⟩
        | innerList => exact ⟨nofun, nofun⟩

/-! ## What is kept -/

section Kept

variable {holder : Holder} {found kept : Json}

theorem Holder.collapse_object (holder : Holder) (fields : Record) :
    (holder.collapse (.object fields)).isContent = false := by
  cases holder with
  | object =>
      change (collapseValue (.object fields)).isContent = false
      rw [collapseValue]
      split <;> rfl
  | list => rfl
  | innerList => rfl

/-- A list comes from a list of the same length. -/
theorem Holder.exists_items_of_collapse {others : List Json}
    (hvalue : holder.collapse found = .array others) :
    ∃ items, found = .array items ∧ items.length = others.length := by
  cases found with
  | object fields =>
      have hcollapsed := holder.collapse_object fields
      rw [hvalue] at hcollapsed
      cases hcollapsed
  | array items =>
      obtain ⟨same, hsame, hlength, -⟩ := holder.exists_items_collapse items
      obtain rfl := Json.array.inj (hsame.symm.trans hvalue)
      exact ⟨items, rfl, hlength.symm⟩
  | _ => cases holder <;> cases hvalue

/-- A scalar other than null comes from itself. -/
theorem Holder.collapse_eq_scalar_iff (hscalar : kept.isScalar = true)
    (hnull : kept.isNull = false) : holder.collapse found = kept ↔ found = kept := by
  cases found with
  | object fields =>
      have hcollapsed := holder.collapse_object fields
      constructor
      · rintro rfl
        generalize holder.collapse (.object fields) = kept at hscalar hnull hcollapsed
        cases kept <;> simp_all [Json.isScalar, Json.isNull, Json.isContent]
      · rintro rfl
        cases hscalar
  | array items =>
      obtain ⟨others, hothers, -⟩ := holder.exists_items_collapse items
      rw [hothers]
      constructor
      · rintro rfl
        cases hscalar
      · rintro rfl
        cases hscalar
  | _ => cases holder <;> exact Iff.rfl

end Kept

section Places

variable {record fields : Record} {found : Json} {path : List Turn}

/-- The record itself is collapsed like an item of a list. -/
theorem object_collapse (record : Record) :
    Json.object (collapse record) = Holder.list.collapse (.object record) := rfl

theorem follow?_object_collapse (hfound : (Json.object record).follow? path = some found)
    (hkept : Holder.ofPath path = .object → ¬ found.Hollow) :
    (Json.object (collapse record)).follow? path =
      some ((Holder.ofPath path).collapse found) := by
  rw [object_collapse]
  exact Holder.follow?_collapse hfound hkept

/-- An object is replaced if and only if an object holds it and it is hollow. -/
theorem vacant_collapse_iff (hfound : (Json.object record).follow? path = some (.object fields)) :
    (Json.object (collapse record)).Vacant path ↔
      Nested path ∧ (Json.object fields).Hollow := by
  rw [nested_iff]
  constructor
  · intro hvacant
    apply Classical.byContradiction
    intro hkept
    have hcollapsed := follow?_object_collapse hfound (not_and.mp hkept)
    obtain ⟨others, hothers, -⟩ := Holder.exists_fields_collapse (not_and.mp hkept)
    rw [hothers] at hcollapsed
    exact Json.not_vacant_of_follow? hcollapsed rfl hvacant
  · rintro ⟨hheld, hhollow⟩
    exact Holder.vacant_collapse hfound hheld hhollow

theorem exists_object_of_not_vacant
    (hfound : (Json.object record).follow? path = some (.object fields))
    (hvacant : ¬ (Json.object (collapse record)).Vacant path) :
    ∃ others, (Json.object (collapse record)).follow? path = some (.object others) := by
  rw [vacant_collapse_iff hfound, nested_iff] at hvacant
  obtain ⟨others, hothers, -⟩ := Holder.exists_fields_collapse (not_and.mp hvacant)
  refine ⟨others, ?_⟩
  rw [← hothers]
  exact follow?_object_collapse hfound (not_and.mp hvacant)

/-- Content keeps its place, as what it becomes there. -/
theorem follow?_collapse_of_content
    (hfound : (Json.object record).follow? path = some found) (hcontent : found.isContent = true) :
    (Json.object (collapse record)).follow? path =
      some ((Holder.ofPath path).collapse found) := by
  apply follow?_object_collapse hfound
  intro _ hhollow
  exact Bool.false_ne_true (hhollow.isContent.symm.trans hcontent)

theorem follow?_collapse_eq_scalar_iff {value : Json} (hscalar : value.isScalar = true)
    (hnull : value.isNull = false) :
    (Json.object (collapse record)).follow? path = some value ↔
      (Json.object record).follow? path = some value := by
  constructor
  · rw [object_collapse]
    intro hkept
    obtain ⟨found, hfound, hvalue⟩ := Holder.exists_of_follow?_collapse hkept
    rw [(Holder.collapse_eq_scalar_iff hscalar hnull).mp hvalue.symm] at hfound
    exact hfound
  · intro hfound
    have hcontent : value.isContent = true := by
      cases value <;> first | cases hscalar; done | cases hnull; done | rfl
    rw [follow?_collapse_of_content hfound hcontent,
      (Holder.collapse_eq_scalar_iff hscalar hnull).mpr rfl]

theorem exists_array_collapse_iff {length : Nat} :
    (∃ items, (Json.object (collapse record)).follow? path = some (.array items) ∧
        items.length = length) ↔
      ∃ items, (Json.object record).follow? path = some (.array items) ∧
        items.length = length := by
  constructor
  · rintro ⟨others, hkept, hlength⟩
    rw [object_collapse] at hkept
    obtain ⟨found, hfound, hvalue⟩ := Holder.exists_of_follow?_collapse hkept
    obtain ⟨items, rfl, hitems⟩ := Holder.exists_items_of_collapse hvalue.symm
    exact ⟨items, hfound, hitems.trans hlength⟩
  · rintro ⟨items, hfound, hlength⟩
    obtain ⟨others, hothers, hcount, -⟩ := (Holder.ofPath path).exists_items_collapse items
    refine ⟨others, ?_, hcount.trans hlength⟩
    rw [← hothers]
    exact follow?_collapse_of_content hfound rfl

end Places

/-- Collapsing twice is collapsing once.  An object is replaced by null, by itself or with what is
around it, if and only if it stands in a nested place and is hollow, and otherwise stays an object
where it is.  Scalars other than null and the lengths of lists are what they were. -/
theorem collapse_replaces_hollow (record : Record) :
    collapse (collapse record) = collapse record ∧
      (∀ (path : List Turn) (fields : Record),
        (Json.object record).follow? path = some (.object fields) →
          ((Json.object (collapse record)).Vacant path ↔
            Nested path ∧ (Json.object fields).Hollow) ∧
          (¬ (Json.object (collapse record)).Vacant path →
            ∃ others, (Json.object (collapse record)).follow? path = some (.object others))) ∧
      (∀ (path : List Turn) (value : Json), value.isScalar = true → value.isNull = false →
        ((Json.object (collapse record)).follow? path = some value ↔
          (Json.object record).follow? path = some value)) ∧
      ∀ (path : List Turn) (length : Nat),
        (∃ items, (Json.object (collapse record)).follow? path = some (.array items) ∧
            items.length = length) ↔
          ∃ items, (Json.object record).follow? path = some (.array items) ∧
            items.length = length := by
  refine ⟨collapse_collapse record, ?_, ?_, ?_⟩
  · intro path fields hfound
    exact ⟨vacant_collapse_iff hfound, exists_object_of_not_vacant hfound⟩
  · intro path value hscalar hnull
    exact follow?_collapse_eq_scalar_iff hscalar hnull
  · intro path length
    exact exists_array_collapse_iff

/-- A book whose author and whose reviewer have null columns only. -/
def reviewedBook : Record :=
  [("author", .object [("agent", .object [("name", .null)]), ("name", .null)]),
    ("reviews", .array [.object [("user", .object [("name", .null)])]])]

theorem collapse_replaces_hollow_reviewedBook :
    (Json.object (collapse reviewedBook)).Vacant [.field "author", .field "agent"] ∧
      ¬ (Json.object (collapse reviewedBook)).Vacant [.field "reviews", .item 0] := by
  obtain ⟨-, hobjects, -, -⟩ := collapse_replaces_hollow reviewedBook
  have hauthor := (hobjects [.field "author", .field "agent"] [("name", .null)] rfl).1
  have hreview := (hobjects [.field "reviews", .item 0]
    [("user", .object [("name", .null)])] rfl).1
  constructor
  · exact hauthor.mpr ⟨(Nested.top "author").field "agent", (isNull_collapseValue _).mp rfl⟩
  · intro hvacant
    exact Holder.noConfusion (nested_iff.mp (hreview.mp hvacant).1)

end Record

end TreeQuery
