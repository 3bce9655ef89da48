import Mathlib

/-!
# Longest spans

The longest span of a text in which a test holds goes up to the first entry of which it does
not hold, or to the end.  So a span and what stands behind it can be told from their sum.
-/

namespace TreeQuery

variable {α : Type} {holds : α → Bool}

/-- What holds in front of a text but not at its beginning is taken exactly. -/
theorem takeWhile_dropWhile {front after : List α}
    (hfront : ∀ entry ∈ front, holds entry = true)
    (hafter : ∀ entry ∈ after.head?, holds entry = false) :
    (front ++ after).takeWhile holds = front ∧ (front ++ after).dropWhile holds = after := by
  rw [List.takeWhile_append_of_pos hfront, List.dropWhile_append_of_pos hfront]
  cases after with
  | nil => simp
  | cons entry rest =>
      have hentry := hafter entry rfl
      simp [hentry]

/-- Every text is a span and what stands behind it. -/
theorem exists_span (holds : α → Bool) (text : List α) :
    ∃ front after, text = front ++ after ∧ (∀ entry ∈ front, holds entry = true) ∧
      ∀ entry ∈ after.head?, holds entry = false := by
  refine ⟨text.takeWhile holds, text.dropWhile holds, List.takeWhile_append_dropWhile.symm,
    fun entry => List.mem_takeWhile_imp, fun entry hentry => ?_⟩
  have hstop := List.head?_dropWhile_not holds text
  rw [hentry] at hstop
  exact hstop

end TreeQuery
