import TreeQuery.Json.Document
import TreeQuery.Path.Step

/-!
# Tables and foreign keys

A table lists its columns, its primary key and the foreign keys it owns.  A
foreign key on its own also names the table that owns it.
-/

namespace TreeQuery.Catalog

/-- A foreign key as its owner declares it. -/
structure Reference where
  column : String
  table : String
  targetColumn : String
  deriving DecidableEq

/-- A table of the catalogue. -/
structure Table where
  name : String
  schema : Option String := none
  columns : List String := []
  primaryKey : List String := []
  references : List Reference := []
  deriving DecidableEq

/-- A foreign key together with its owner. -/
structure ForeignKey where
  table : String
  column : String
  targetTable : String
  targetColumn : String
  deriving DecidableEq

namespace Table

/-- Whether a table lists a column. -/
def hasColumn (table : Table) (name : String) : Bool :=
  table.columns.contains name

/-- The table with a column, which is added at the end unless it is listed. -/
def withColumn (table : Table) (name : String) : Table :=
  if table.hasColumn name then table else { table with columns := table.columns ++ [name] }

/-- The table with all columns of its keys listed. -/
def withKeyColumns (table : Table) : Table :=
  (table.primaryKey ++ table.references.map Reference.column).foldl withColumn table

/-- The table in a schema of the database, in place of an earlier one. -/
def inSchema (table : Table) (schema : String) : Table :=
  { table with schema := some schema }

/-- The table with more columns at the end of its list. -/
def listing (table : Table) (columns : List String) : Table :=
  { table with columns := table.columns ++ columns }

/-- The table with one more column in its primary key. -/
def keyedBy (table : Table) (column : String) : Table :=
  { table with primaryKey := table.primaryKey ++ [column] }

/-- The table with one more foreign key. -/
def referencing (table : Table) (reference : Reference) : Table :=
  { table with references := table.references ++ [reference] }

/-- The foreign keys a table declares, in order. -/
def foreignKeys (table : Table) : List ForeignKey :=
  table.references.map fun reference =>
    ⟨table.name, reference.column, reference.table, reference.targetColumn⟩

end Table

namespace ForeignKey

/-- Whether a key leads to a step: into its table and, when the step has a
qualifier, by the column the qualifier names. -/
def leadsTo (key : ForeignKey) (step : Step) : Bool :=
  key.targetTable == step.name &&
    match step.qualifier with
    | none => true
    | some qualifier => key.column == qualifier ++ "_id"

/-- A key for people. -/
def text (key : ForeignKey) : String :=
  key.table ++ "." ++ key.column ++ " -> " ++ key.targetTable ++ "." ++ key.targetColumn

end ForeignKey

/-! ## Documents -/

namespace Reference

/-- The document of a declared key. -/
def encode (reference : Reference) : Json :=
  .object [("column", .string reference.column),
    ("references_column", .string reference.targetColumn),
    ("references_table", .string reference.table)]

/-- The declared key of a document. -/
def decode? (document : Json) : Option Reference :=
  match document.slots? ["column", "references_table", "references_column"] with
  | some [column, table, targetColumn] => do
      return ⟨← Json.requiredText? column, ← Json.requiredText? table,
        ← Json.requiredText? targetColumn⟩
  | _ => none

end Reference

namespace Table

/-- The document of a table. -/
def encode (table : Table) : Json :=
  .object ([("columns", .array (table.columns.map .string)),
    ("foreign_keys", .array (table.references.map Reference.encode)),
    ("name", .string table.name),
    ("primary_key", .array (table.primaryKey.map .string))] ++
    Json.optionalField "schema" table.schema)

/-- The declared keys of a document, none when they are missing. -/
def decodeReferences? : Option Json → Option (List Reference)
  | none => some []
  | some (.array items) => items.mapM Reference.decode?
  | some _ => none

/-- The table of a document. -/
def decode? (document : Json) : Option Table :=
  match document.slots? ["name", "schema", "columns", "primary_key", "foreign_keys"] with
  | some [name, schema, columns, primaryKey, references] => do
      return {
        name := ← Json.requiredText? name
        schema := ← Json.optionalText? schema
        columns := ← Json.optionalTexts? columns
        primaryKey := ← Json.optionalTexts? primaryKey
        references := ← decodeReferences? references }
  | _ => none

end Table

namespace ForeignKey

/-- The document of a key. -/
def encode (key : ForeignKey) : Json :=
  .object [("column", .string key.column), ("table", .string key.table),
    ("target_column", .string key.targetColumn), ("target_table", .string key.targetTable)]

/-- The key of a document. -/
def decode? (document : Json) : Option ForeignKey :=
  match document.slots? ["table", "column", "target_table", "target_column"] with
  | some [table, column, targetTable, targetColumn] => do
      return ⟨← Json.requiredText? table, ← Json.requiredText? column,
        ← Json.requiredText? targetTable, ← Json.requiredText? targetColumn⟩
  | _ => none

end ForeignKey

end TreeQuery.Catalog
