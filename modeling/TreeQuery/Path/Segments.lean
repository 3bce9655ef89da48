/-!
# Segments between double underscores

Names along a path are joined with a double underscore.  Splitting is leftmost:
of three underscores in a row the first two are the separator and the third
begins the next segment.
-/

namespace TreeQuery.Segments

/-- The text between two segments. -/
def separator : String := "__"

/-- The segments of a text, at least one. -/
def split : List Char → List (List Char)
  | [] => [[]]
  | '_' :: '_' :: rest => [] :: split rest
  | character :: rest =>
      match split rest with
      | [] => [[character]]
      | first :: others => (character :: first) :: others

/-- The segments of a string. -/
def ofString (text : String) : List String :=
  (split text.toList).map String.ofList

/-- The segments joined again. -/
def join (segments : List String) : String :=
  separator.intercalate segments

/-- There is always a first segment. -/
theorem split_ne_nil (text : List Char) : split text ≠ [] := by
  fun_cases split text <;> simp_all

/-- Joining the segments of a text gives the text back. -/
theorem intercalate_split (text : List Char) :
    ['_', '_'].intercalate (split text) = text := by
  fun_induction split text with
  | case1 => rfl
  | case2 rest ih =>
      obtain ⟨first, others, heq⟩ := List.exists_cons_of_ne_nil (split_ne_nil rest)
      rw [heq] at ih ⊢
      simpa using ih
  | case3 character rest hsplit heq ih => exact absurd heq (split_ne_nil rest)
  | case4 character rest hsplit first others heq ih =>
      rw [heq] at ih
      rw [← ih]
      cases others <;> simp

end TreeQuery.Segments
