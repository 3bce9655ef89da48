import TreeQuery.Catalog.Schema

/-!
# Remembered answers

A schema is asked for the same tables, columns and links again and again.
Answers are remembered under the key texts of the paths they were given for,
and a remembered answer is given before anything else is looked at.  Questions
without an answer are asked anew.
-/

namespace TreeQuery.Catalog

/-- The answers given so far. -/
structure Memo where
  tables : List (String × Sql.TableRef) := []
  columns : List (String × ResolvedColumn) := []
  links : List ((String × String) × Link) := []

/-- A computation that may ask the schema and may fail. -/
abbrev Lookup (ε α : Type) := ExceptT ε (StateM Memo) α

namespace Schema

/-- The table reference of a path. -/
def table? (schema : Schema) (path : Path) : StateM Memo (Option Sql.TableRef) := do
  match List.lookup path.key (← get).tables with
  | some known => return some known
  | none =>
      match schema.tableRef? path with
      | none => return none
      | some table =>
          modify fun memo => { memo with tables := (path.key, table) :: memo.tables }
          return some table

/-- The column of an address. -/
def column? (schema : Schema) (address : Address) : StateM Memo (Option ResolvedColumn) := do
  match List.lookup address.key (← get).columns with
  | some known => return some known
  | none =>
      if schema.hasColumn address.path.tableName address.name then
        match ← schema.table? address.path with
        | none => return none
        | some table =>
            let column : ResolvedColumn := ⟨table, address.name, address.resultName⟩
            modify fun memo => { memo with columns := (address.key, column) :: memo.columns }
            return some column
      else return none

/-- The link between two paths, if they are related. -/
def link? (schema : Schema) (source target : Path) : Lookup SchemaError (Option Link) := do
  match List.lookup (source.key, target.key) (← get).links with
  | some known => return some known
  | none =>
      match schema.linkBetween source target with
      | .error problem => throw problem
      | .ok none => return none
      | .ok (some link) =>
          modify fun memo =>
            { memo with links := ((source.key, target.key), link) :: memo.links }
          return some link

/-- The table reference of a path, which must exist. -/
def table (schema : Schema) (path : Path) : Lookup SchemaError Sql.TableRef := do
  match ← schema.table? path with
  | some table => return table
  | none => throw (.unknownTable path.tableName)

/-- The column of an address, which must exist. -/
def column (schema : Schema) (address : Address) : Lookup SchemaError ResolvedColumn := do
  match ← schema.column? address with
  | some column => return column
  | none =>
      let table := address.path.tableName
      if (schema.tableNamed? table).isSome then throw (.unknownColumn table address.name)
      else throw (.unknownTable table)

/-- The link between two paths, which must be related. -/
def link (schema : Schema) (source target : Path) : Lookup SchemaError Link := do
  match ← schema.link? source target with
  | some link => return link
  | none => throw (.noLink source.outputName target.outputName)

end Schema

end TreeQuery.Catalog
