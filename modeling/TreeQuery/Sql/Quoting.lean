/-!
# Quoting

Identifiers and strings are enclosed in delimiters, and a delimiter inside is
written twice.
-/

namespace TreeQuery.Sql

/-- A text in which every occurrence of one character is written twice. -/
def doubled (delimiter : Char) : List Char → List Char
  | [] => []
  | character :: rest =>
      if character = delimiter then delimiter :: delimiter :: doubled delimiter rest
      else character :: doubled delimiter rest

/-- A text between two delimiters, with the closing one doubled inside. -/
def enclosed (opening closing : Char) (text : List Char) : List Char :=
  opening :: doubled closing text ++ [closing]

/-- Reads an enclosed text after its opening delimiter, up to the first closing
delimiter that is not doubled; also gives what follows. -/
def unenclosed? (closing : Char) : List Char → Option (List Char × List Char)
  | [] => none
  | [character] => if character = closing then some ([], []) else none
  | character :: next :: rest =>
      if character = closing then
        if next = closing then
          (unenclosed? closing rest).map fun (text, after) => (closing :: text, after)
        else some ([], next :: rest)
      else
        (unenclosed? closing (next :: rest)).map fun (text, after) =>
          (character :: text, after)

/-- What was enclosed is read back, whatever follows that is not the closing
delimiter. -/
theorem unenclosed?_doubled (closing : Char) (text after : List Char)
    (hafter : after.head? ≠ some closing) :
    unenclosed? closing (doubled closing text ++ closing :: after) = some (text, after) := by
  induction text with
  | nil =>
      cases after with
      | nil => simp [doubled, unenclosed?]
      | cons next rest =>
          have hne : next ≠ closing := by simpa using hafter
          simp [doubled, unenclosed?, hne]
  | cons character rest ih =>
      by_cases heq : character = closing
      · subst heq
        simp [doubled, unenclosed?, ih]
      · simp only [doubled, if_neg heq, List.cons_append]
        obtain ⟨next, others, hcons⟩ :=
          List.exists_cons_of_ne_nil
            (show doubled closing rest ++ closing :: after ≠ [] by simp)
        rw [hcons] at ih ⊢
        simp [unenclosed?, heq, ih]

end TreeQuery.Sql
