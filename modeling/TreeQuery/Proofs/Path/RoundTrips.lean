import TreeQuery.Proofs.Path.Plain

/-!
# Paths and addresses read back

A path is read back from its key, whatever qualifiers and labels its steps have, as long as
no name can be taken for the end of another one.  So paths may be compared and hashed by
their keys.  A column is read back from its name in the result below a known root; there the
steps must be bare, since output names do not tell tables from qualifiers and labels.
-/

namespace TreeQuery

namespace Path

/-- The end mark is a byte of its own, so the bytes determine the key. -/
theorem hashInput_inj {first second : Path} :
    first.hashInput = second.hashInput ↔ first.key = second.key := by
  rw [hashInput, hashInput, List.append_left_inj, Array.toList_inj]
  constructor
  · intro hbytes
    exact String.toByteArray_inj.mp (ByteArray.ext hbytes)
  · intro hkey
    rw [hkey]

theorem same_iff {first second : Path} : first.same second = true ↔ first.key = second.key :=
  beq_iff_eq

/-- A path that keys can carry is read back from its key.  Two such paths count as the same
exactly when their steps are the same, and so it is with the bytes they are hashed by. -/
theorem parse_key_same_iff {first second : Path} (hfirst : Keyed first)
    (hsecond : Keyed second) :
    parse first.key = first ∧ (first.same second = true ↔ first = second) ∧
      (first.hashInput = second.hashInput ↔ first = second) := by
  have hkeys : first.key = second.key ↔ first = second :=
    ⟨hfirst.key_inj hsecond, congrArg key⟩
  exact ⟨hfirst.parse_key, same_iff.trans hkeys, hashInput_inj.trans hkeys⟩

/-- A book with its editor, with a reviewer who is a person too, and with a page behind
names that begin with underscores. -/
def editedBook : Path :=
  [{ name := "book" }, { name := "person", qualifier := some "editor" },
    { name := "person", label := some "reviewer" },
    { name := "_page", qualifier := some "_first", label := some "front_page" }]

/-- The same tables with the editor as a label. -/
def labelledBook : Path :=
  [{ name := "book" }, { name := "person", label := some "editor" },
    { name := "person", label := some "reviewer" },
    { name := "_page", qualifier := some "_first", label := some "front_page" }]

theorem parse_key_same_iff_editedBook :
    Keyed editedBook ∧ Keyed labelledBook ∧ parse editedBook.key = editedBook ∧
      editedBook.same labelledBook = false ∧
      editedBook.hashInput ≠ labelledBook.hashInput := by
  have hedited : Keyed editedBook := by decide
  have hlabelled : Keyed labelledBook := by decide
  have hne : editedBook ≠ labelledBook := by decide
  obtain ⟨hparse, hsame, hhash⟩ := parse_key_same_iff hedited hlabelled
  exact ⟨hedited, hlabelled, hparse, Bool.eq_false_iff.mpr (mt hsame.mp hne),
    mt hhash.mp hne⟩

/-- An underscore at the end of a name is taken for the beginning of the separator. -/
example : parse (key [{ name := "book_" }, { name := "author" }]) =
    [{ name := "book" }, { name := "_author" }] := by
  decide

end Path

namespace Address

/-- Below a root of one step, a column at the end of bare steps is read back from its name in
the result.  The names of the steps hold no separator and do not end in half of one; the
column's own name may. -/
theorem ofAlias_resultName (root : Step) {nested : List Step} {name : String}
    (hbare : ∀ step ∈ nested, step.bare = step)
    (hnested : ∀ step ∈ nested, Segments.Separable step.name.toList)
    (hname : ¬ ['_', '_'] <:+: name.toList) :
    ofAlias [root] (resultName ⟨name, root :: nested⟩) = ⟨name, root :: nested⟩ := by
  have houtput : nested.map Step.outputName = nested.map Step.name := by
    refine List.map_congr_left fun step hstep => ?_
    rw [← hbare step hstep]
    rfl
  have hsteps : (nested.map Step.name).map (fun name => { name }) = nested := by
    rw [List.map_map]
    exact (List.map_congr_left hbare).trans (List.map_id nested)
  have hsegments : Segments.ofString (resultName ⟨name, root :: nested⟩) =
      nested.map Step.name ++ [name] := by
    rw [resultName_eq_join, houtput]
    exact Segments.ofString_join_concat (List.forall_mem_map.mpr hnested) hname
  rw [ofAlias, hsegments, List.getLast?_concat, List.dropLast_concat, hsteps]
  rfl

/-- A book that is renamed in output. -/
def firstBook : Step :=
  { name := "book", qualifier := some "first", label := some "b" }

/-- The home of an author, by a name with an underscore and a colon. -/
def authorHome : List Step :=
  [{ name := "author" }, { name := "_home:place" }]

theorem ofAlias_resultName_authorHome :
    resultName ⟨"_since_", firstBook :: authorHome⟩ = "author___home:place___since_" ∧
      ofAlias [firstBook] (resultName ⟨"_since_", firstBook :: authorHome⟩) =
        ⟨"_since_", firstBook :: authorHome⟩ := by
  have hbare : ∀ step ∈ authorHome, step.bare = step := by decide
  have hnested : ∀ step ∈ authorHome, Segments.Separable step.name.toList := by decide
  have hname : ¬ ['_', '_'] <:+: "_since_".toList := by decide
  exact ⟨by decide, ofAlias_resultName firstBook hbare hnested hname⟩

/-- The qualifier of a nested step is taken for a table. -/
example : ofAlias [{ name := "book" }] (resultName ⟨"name", [{ name := "book" },
    { name := "person", qualifier := some "editor" }]⟩) =
      ⟨"name", [{ name := "book" }, { name := "editor" }]⟩ := by
  decide

end Address

end TreeQuery
