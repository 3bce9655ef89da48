import TreeQuery.Path.Segments

/-!
# Steps of a path

A step names a table.  Its qualifier selects the foreign key that relates the
table to the step before, and its label renames the step in output.
-/

namespace TreeQuery

/-- One step of a path. -/
structure Step where
  name : String
  qualifier : Option String := none
  label : Option String := none
  deriving DecidableEq

namespace Step

/-- The name a step has in output: its label, else its qualifier, else its
table's name. -/
def outputName (step : Step) : String :=
  (step.label.or step.qualifier).getD step.name

/-- The step as `name:qualifier:label`, with only the parts it needs.  A label
without a qualifier leaves the middle part empty. -/
def key (step : Step) : String :=
  match step.qualifier, step.label with
  | none, none => step.name
  | some qualifier, none => step.name ++ ":" ++ qualifier
  | qualifier, some label => step.name ++ ":" ++ qualifier.getD "" ++ ":" ++ label

/-- Whether the table needs an alias of its own. -/
def isAliased (step : Step) : Bool :=
  step.qualifier.isSome || step.label.isSome

/-- The same table without qualifier and label. -/
def bare (step : Step) : Step where
  name := step.name

/-- The step with a qualifier, in place of an earlier one. -/
def withQualifier (step : Step) (qualifier : String) : Step :=
  { step with qualifier := some qualifier }

/-- The step with a label, in place of an earlier one. -/
def withLabel (step : Step) (label : String) : Step :=
  { step with label := some label }

/-- A text up to its first colon, and the text after it. -/
def cutAtColon : List Char → List Char × Option (List Char)
  | [] => ([], none)
  | ':' :: rest => ([], some rest)
  | character :: rest =>
      let (front, back) := cutAtColon rest
      (character :: front, back)

/-- A part of a step, absent when it is empty. -/
def part? : List Char → Option String
  | [] => none
  | character :: rest => some (String.ofList (character :: rest))

/-- Reads `name:qualifier:label`.  Everything after the second colon is the
label, and empty parts are absent. -/
def parse (text : List Char) : Step :=
  let (name, afterName) := cutAtColon text
  let (qualifier, label) := match afterName with
    | none => ([], none)
    | some rest => cutAtColon rest
  { name := String.ofList name
    qualifier := part? qualifier
    label := label.bind part? }

end Step

end TreeQuery
