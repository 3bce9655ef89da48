import Mathlib

/-!
# First occurrences

A list that is filled with entries as they come, each unless it is there already, holds each of
them once, in the order in which they first came.
-/

namespace TreeQuery

variable {α : Type} [BEq α] [LawfulBEq α]

theorem eraseDups_concat (entries : List α) (entry : α) :
    (entries ++ [entry]).eraseDups =
      if entries.contains entry then entries.eraseDups else entries.eraseDups ++ [entry] := by
  have hnew : [entry].removeAll entries = if entries.contains entry then [] else [entry] := by
    cases hknown : entries.elem entry <;>
      simp only [List.removeAll, List.filter, List.contains, hknown] <;> rfl
  rw [List.eraseDups_append, hnew]
  split
  · exact List.append_nil _
  · rfl

theorem nodup_eraseDups (entries : List α) : entries.eraseDups.Nodup := by
  induction entries using List.reverseRecOn with
  | nil => exact List.nodup_nil
  | append_singleton entries entry ih =>
      rw [eraseDups_concat]
      split
      · exact ih
      · next hnew =>
          rw [← List.concat_eq_append]
          apply ih.concat
          rwa [List.mem_eraseDups, ← List.contains_iff_mem]

theorem eraseDups_sublist (entries : List α) : entries.eraseDups.Sublist entries := by
  induction entries using List.reverseRecOn with
  | nil => exact List.Sublist.slnil
  | append_singleton entries entry ih =>
      rw [eraseDups_concat]
      split
      · exact ih.trans (List.sublist_append_left _ _)
      · exact ih.append (List.Sublist.refl _)

/-- Filling a list with entries, each unless it is there already. -/
theorem foldl_eraseDups (entries : List α) :
    entries.foldl (fun listed entry =>
      if listed.contains entry then listed else listed ++ [entry]) [] = entries.eraseDups := by
  induction entries using List.reverseRecOn with
  | nil => rfl
  | append_singleton entries entry ih =>
      have hsame : entries.eraseDups.contains entry = entries.contains entry := by
        rw [Bool.eq_iff_iff, List.contains_iff_mem, List.contains_iff_mem, List.mem_eraseDups]
      rw [List.foldl_concat, ih, eraseDups_concat, hsame]

end TreeQuery
