import TreeQuery.Path.Basic

/-!
# Addresses of columns

A column inside a path.  The alias names it among the columns of a result: a
column of the root by its own name, a nested one by the output names of the
steps below the root followed by its name.
-/

namespace TreeQuery

/-- A column at the end of a path. -/
structure Address where
  name : String
  path : Path
  deriving DecidableEq

namespace Address

/-- The text that identifies an address. -/
def key (address : Address) : String :=
  if address.path.isEmpty then address.name
  else address.path.key ++ Segments.separator ++ address.name

/-- The output names along the path, followed by the column. -/
def outputName (address : Address) : String :=
  if address.path.isEmpty then address.name
  else address.path.outputName ++ Segments.separator ++ address.name

/-- The name of the column in a result. -/
def resultName (address : Address) : String :=
  if 1 < address.path.length then
    outputName { address with path := address.path.drop 1 }
  else address.name

/-- Reads an alias below a root path.  Its segments are read as tables without
qualifier and label. -/
def ofAlias (root : Path) (text : String) : Address :=
  let segments := Segments.ofString text
  { name := segments.getLast?.getD ""
    path := root ++ segments.dropLast.map fun name => { name } }

/-- Two addresses are the same when their keys are. -/
def same (left right : Address) : Bool :=
  left.key == right.key

end Address

end TreeQuery
