import TreeQuery.Storage.Introspection

/-!
# Declared tables

The tables of a database as they were declared, the rows that the database keeps
of them, and the tables that are read back from these rows.
-/

namespace TreeQuery.Storage

/-- A declared foreign key.  Without target columns it refers to the primary
key. -/
structure KeyDeclaration where
  columns : List String
  table : String
  targetColumns : List String := []
  deriving DecidableEq

/-- A declared table. -/
structure Declaration where
  name : String
  columns : List String := []
  primaryKey : List String := []
  keys : List KeyDeclaration := []
  deriving DecidableEq

/-- Whether two column names are the same to the database, which does not tell the
cases of ASCII letters apart. -/
def sameColumn (left right : String) : Bool :=
  left.toList.map Char.toLower == right.toList.map Char.toLower

/-! ## Documents -/

/-- The declared key of a document. -/
def KeyDeclaration.decode? (document : Json) : Option KeyDeclaration := do
  let fields ← document.fields?
  return {
    columns := ← Json.optionalTexts? (fields.get? "columns")
    table := ← Json.requiredText? (fields.get? "table")
    targetColumns := ← Json.optionalTexts? (fields.get? "to") }

namespace Declaration

/-- The declared keys of a document, none when they are missing. -/
def decodeKeys? : Option Json → Option (List KeyDeclaration)
  | none => some []
  | some (.array items) => items.mapM KeyDeclaration.decode?
  | some _ => none

/-- The declared table of a document. -/
def decode? (document : Json) : Option Declaration := do
  let fields ← document.fields?
  return {
    name := ← Json.requiredText? (fields.get? "name")
    columns := ← Json.optionalTexts? (fields.get? "columns")
    primaryKey := ← Json.optionalTexts? (fields.get? "primary_key")
    keys := ← decodeKeys? (fields.get? "foreign_keys") }

/-- The declared tables of a document. -/
def decodeAll? : Json → Option (List Declaration)
  | .array items => items.mapM decode?
  | _ => none

/-! ## The rows of a table -/

/-- A column in the spelling of its declaration. -/
def spelling (declaration : Declaration) (column : String) : String :=
  (declaration.columns.find? (sameColumn column)).getD column

/-- The declaration as the database keeps it: columns in the spelling of their
declarations, and each column of the primary key once. -/
def kept (declaration : Declaration) : Declaration :=
  { declaration with
    primaryKey := (declaration.primaryKey.map declaration.spelling).eraseDups
    keys := declaration.keys.map fun key =>
      { key with columns := key.columns.map declaration.spelling } }

/-- The row of a column. -/
def columnRow (declaration : Declaration) (column : String) : ColumnRow where
  place := declaration.columns.idxOf column
  name := column
  keyPosition :=
    if declaration.primaryKey.contains column then declaration.primaryKey.idxOf column + 1 else 0

/-- The rows of the columns. -/
def columnRows (declaration : Declaration) : List ColumnRow :=
  declaration.columns.map declaration.columnRow

end Declaration

/-- The rows of a key, one for each column. -/
def KeyDeclaration.rows (key : KeyDeclaration) (number : Nat) : List KeyRow :=
  key.columns.zipIdx.map fun (column, index) => {
    number := number
    sequence := index
    table := key.table
    column := column
    targetColumn? := key.targetColumns[index]? }

namespace Declaration

/-- The rows of the foreign keys, which have the given numbers. -/
def keyRows (declaration : Declaration) (numbers : List Nat) : List KeyRow :=
  (declaration.keys.zip numbers).flatMap fun (key, number) => key.rows number

/-- The declaration of a name. -/
def named? (declarations : List Declaration) (name : String) : Option Declaration :=
  declarations.find? fun declaration => declaration.name == name

/-- The rows of declarations that are kept as they are. -/
def masterOf (declarations : List Declaration) : Master where
  objects := declarations.zipIdx.map fun (declaration, index) =>
    { rowid := index + 1, kind := "table", name := declaration.name }
  columnRows name := ((named? declarations name).map columnRows).getD []
  keyRows name := ((named? declarations name).map fun declaration =>
    declaration.keyRows (List.range declaration.keys.length).reverse).getD []

/-- The tables of a database, in the order of their declarations. -/
def tables (declarations : List Declaration) : List Catalog.Table :=
  (masterOf (declarations.map kept)).tables

end Declaration

end TreeQuery.Storage
