import TreeQuery.Path.Step

/-!
# Paths

A path leads from the root of a request down to a nested relation.  Its key
spells out every part of every step and identifies the path; its output name
joins the output names of its steps.
-/

namespace TreeQuery

/-- The steps from the root of a request, outermost first. -/
abbrev Path := List Step

namespace Path

/-- The text that identifies a path. -/
def key (path : Path) : String :=
  Segments.join (path.map Step.key)

/-- The output names along a path, joined. -/
def outputName (path : Path) : String :=
  Segments.join (path.map Step.outputName)

/-- Reads a path from its key.  The empty text is the empty path. -/
def parse (text : String) : Path :=
  if text.isEmpty then [] else (Segments.split text.toList).map Step.parse

/-- The path with one more step. -/
def child (path : Path) (step : Step) : Path :=
  path ++ [step]

/-- The steps from `first` up to but not including `last`; bounds beyond the
end are moved to the end. -/
def slice (path : Path) (first : Nat) (last : Option Nat) : Path :=
  (path.take (last.getD path.length)).drop first

/-- The table of the innermost step, empty for the empty path. -/
def tableName (path : Path) : String :=
  match path.getLast? with
  | some step => step.name
  | none => ""

/-- Two paths are the same when their keys are. -/
def same (left right : Path) : Bool :=
  left.key == right.key

/-- The bytes that a path is hashed by: those of its key, and one that ends them. -/
def hashInput (path : Path) : List UInt8 :=
  path.key.toUTF8.data.toList ++ [0xff]

end Path

end TreeQuery
