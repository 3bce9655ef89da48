import TreeQuery.Proofs.Session.Standing

/-!
# What unflattening keeps

A row is visited in key order, so a key comes before the keys whose segments go on behind its
own.  Its value is lost to them, and only to them.  And what is not an object in the nested
record was written under a key of the row.
-/

namespace TreeQuery

theorem Segments.ofString_injective : Function.Injective ofString := by
  intro text other hsame
  rw [← join_ofString text, hsame, join_ofString]

/-- A value that is no object holds nothing below itself. -/
theorem Json.eq_of_at? {value found : Json} {path : List String} (hvalue : value.fields? = none)
    (hfound : value.at? path = some found) : path = [] ∧ found = value := by
  cases path with
  | nil => exact ⟨rfl, (Option.some.inj hfound).symm⟩
  | cons key rest =>
      cases value with
      | object fields => cases hvalue
      | _ => cases hfound

namespace Record

/-- The segments of a key go on in those of another key of the row. -/
def Shadowed (row : Record) (key : String) : Prop :=
  ∃ other ∈ row.map Prod.fst,
    Segments.ofString key <+: Segments.ofString other ∧
      Segments.ofString key ≠ Segments.ofString other

instance (row : Record) (key : String) : Decidable (row.Shadowed key) :=
  inferInstanceAs (Decidable (∃ other ∈ row.map Prod.fst,
    Segments.ofString key <+: Segments.ofString other ∧
      Segments.ofString key ≠ Segments.ofString other))

variable {row record : Record} {key : String} {value found : Json} {path place : List String}

/-- A value that no other key shadows stands at the segments of its key. -/
theorem at?_unflatten_of_unshadowed (hordered : (row.map Prod.fst).Pairwise (· < ·))
    (hvalue : row.get? key = some value) (hshown : ¬ row.Shadowed key) :
    (Json.object (unflatten row)).at? (Segments.ofString key) = some value := by
  obtain ⟨before, behind, rfl⟩ := List.append_of_mem (mem_of_get? hvalue)
  have hpairs := List.pairwise_map.mp hordered
  have hlater := (List.pairwise_cons.mp (List.pairwise_append.mp hpairs).2.1).1
  apply at?_unflatten_of_later
  intro field hfield
  constructor
  · intro habove
    have hnot := Segments.not_join_lt_of_prefix habove
    rw [Segments.join_ofString] at hnot
    exact hnot (hlater field hfield)
  · intro hbelow
    apply hshown
    refine ⟨field.1, ?_, hbelow, ?_⟩
    · exact List.mem_map_of_mem (List.mem_append_right _ (List.mem_cons_of_mem _ hfield))
    · intro hsame
      have hlt := hlater field hfield
      rw [Segments.ofString_injective hsame] at hlt
      exact lt_irrefl _ hlt

/-- What is no object after a value was written that is none either is that value, or stood in
its place before. -/
theorem eq_or_at?_of_insertAt (hpath : path ≠ []) (hvalue : value.fields? = none)
    (hfound : (Json.object (insertAt path value record)).at? place = some found)
    (hplain : found.fields? = none) :
    (place = path ∧ found = value) ∨ (Json.object record).at? place = some found := by
  have hwritten := at?_insertAt_self hpath value record
  by_cases habove : place <+: path
  · obtain ⟨rest, rfl⟩ := habove
    rw [Json.at?_append, hfound] at hwritten
    obtain ⟨rfl, rfl⟩ := Json.eq_of_at? hplain hwritten
    exact .inl ⟨(List.append_nil place).symm, rfl⟩
  · by_cases hbelow : path <+: place
    · obtain ⟨rest, rfl⟩ := hbelow
      rw [Json.at?_append, hwritten] at hfound
      obtain ⟨rfl, rfl⟩ := Json.eq_of_at? hvalue hfound
      exact .inl ⟨List.append_nil path, rfl⟩
    · rw [at?_insertAt_of_apart ⟨hbelow, habove⟩] at hfound
      exact .inr hfound

/-- What is no object in an unflattened row is the value of a field, at the segments of its
key. -/
theorem exists_field_of_at?_unflatten (hvalues : ∀ field ∈ row, field.2.fields? = none)
    (hfound : (Json.object (unflatten row)).at? place = some found)
    (hplain : found.fields? = none) :
    ∃ field ∈ row, Segments.ofString field.1 = place ∧ field.2 = found := by
  induction row using List.reverseRecOn with
  | nil =>
      cases place with
      | nil =>
          obtain rfl := Option.some.inj hfound
          cases hplain
      | cons key rest => cases hfound
  | append_singleton fields field ih =>
      obtain ⟨hfields, hfield⟩ := List.forall_mem_append.mp hvalues
      rw [unflatten, List.foldl_append] at hfound
      rcases eq_or_at?_of_insertAt (Segments.ofString_ne_nil field.1)
        (hfield field (List.mem_singleton_self _)) hfound hplain with ⟨rfl, rfl⟩ | hbefore
      · exact ⟨field, List.mem_append_right _ (List.mem_singleton_self _), rfl, rfl⟩
      · obtain ⟨other, hother, hplace⟩ := ih hfields hbefore
        exact ⟨other, List.mem_append_left _ hother, hplace⟩

/-- Unflattening a row in key order loses the values of shadowed keys only.  If the row holds no
objects, whatever is no object afterwards stands at the segments of exactly one of its keys. -/
theorem unflatten_keeps_unshadowed (hordered : (row.map Prod.fst).Pairwise (· < ·)) :
    (∀ key ∈ row.map Prod.fst, ¬ row.Shadowed key →
      (Json.object (unflatten row)).at? (Segments.ofString key) = row.get? key) ∧
    ((∀ field ∈ row, field.2.fields? = none) → ∀ (place : List String) (found : Json),
      (Json.object (unflatten row)).at? place = some found → found.fields? = none →
        ∃ key, row.get? key = some found ∧ Segments.ofString key = place ∧
          ∀ other ∈ row.map Prod.fst, Segments.ofString other = place → other = key) := by
  constructor
  · intro key hkey hshown
    obtain ⟨value, hvalue⟩ := exists_get?_of_mem hkey
    rw [hvalue]
    exact at?_unflatten_of_unshadowed hordered hvalue hshown
  · intro hvalues place found hfound hplain
    obtain ⟨⟨key, value⟩, hfield, rfl, rfl⟩ := exists_field_of_at?_unflatten hvalues hfound hplain
    have hnodup : (row.map Prod.fst).Nodup := hordered.imp ne_of_lt
    refine ⟨key, get?_of_mem hnodup hfield, rfl, ?_⟩
    intro other _ hsame
    exact Segments.ofString_injective hsame

/-- The row of a book in which one key is shadowed and one holds three underscores. -/
def sealedBook : Record :=
  [("author", .int 7), ("author___seal", .string "round"), ("author__name", .null),
    ("title", .string "a__b")]

theorem unflatten_keeps_unshadowed_sealedBook :
    sealedBook.Shadowed "author" ∧
      (Json.object (unflatten sealedBook)).at? ["author", "_seal"] = some (.string "round") ∧
      ∃ key, sealedBook.get? key = some (.string "a__b") ∧ Segments.ofString key = ["title"] ∧
        ∀ other ∈ sealedBook.map Prod.fst, Segments.ofString other = ["title"] → other = key := by
  have hordered : (sealedBook.map Prod.fst).Pairwise (· < ·) := by decide
  obtain ⟨hkeeps, hplaces⟩ := unflatten_keeps_unshadowed hordered
  refine ⟨by decide, hkeeps "author___seal" (by decide) (by decide), ?_⟩
  apply hplaces _ ["title"] (.string "a__b") rfl rfl
  simp [sealedBook, Json.fields?]

end Record

end TreeQuery
