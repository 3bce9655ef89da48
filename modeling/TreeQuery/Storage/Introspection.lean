import TreeQuery.Catalog.Table

/-!
# Introspection

A database keeps rows about its own objects, about the columns of its tables and
about their foreign keys.  The tables of a catalogue are read from these rows, in the
order of their creation, without those whose names are reserved for the database
itself.  A foreign key over several columns has one row for each of them and becomes
one key for each.  A key that does not name the columns it refers to refers to the
target's primary key, which is looked up when all tables have been read.
-/

namespace TreeQuery.Storage

/-- The column that every table has without declaring it. -/
def rowColumn : String := "rowid"

/-- Whether a name is reserved: it begins with `sqlite` and goes on.  The store is asked by a
pattern, and letters of the other case do not match it, since every connection is opened with
a case-sensitive `LIKE`.  A connection that is opened otherwise and introspected directly
would also take the name `SQLITE1` for a reserved one. -/
def isReserved (name : String) : Bool :=
  "sqlite".toList.isPrefixOf name.toList && "sqlite".length < name.length

/-- The row of an object, such as a table or an index. -/
structure ObjectRow where
  rowid : Nat
  kind : String
  name : String
  deriving DecidableEq

/-- The row of a column: its place among the columns and its position in the primary
key, zero when it is no part of it. -/
structure ColumnRow where
  place : Nat
  name : String
  keyPosition : Nat
  deriving DecidableEq

/-- The row of one column of a foreign key.  All rows of a key have its number; the
numbers count down to the key that was declared last. -/
structure KeyRow where
  number : Nat
  sequence : Nat
  table : String
  column : String
  targetColumn? : Option String
  deriving DecidableEq

/-- The rows a database keeps: those of its objects, and by the name of a table those
of its columns and of its foreign keys.  No order of the rows is promised. -/
structure Master where
  objects : List ObjectRow
  columnRows : String → List ColumnRow
  keyRows : String → List KeyRow

/-! ## The order of the rows -/

namespace ObjectRow

/-- The order of creation. -/
def precedes (left right : ObjectRow) : Bool :=
  left.rowid ≤ right.rowid

/-- Whether a row is one of a table that is not the database's own. -/
def isListed (row : ObjectRow) : Bool :=
  row.kind == "table" && !isReserved row.name

end ObjectRow

/-- The order of the columns of a table. -/
def ColumnRow.precedes (left right : ColumnRow) : Bool :=
  left.place ≤ right.place

/-- The order of the columns in a primary key. -/
def ColumnRow.precedesInKey (left right : ColumnRow) : Bool :=
  left.keyPosition < right.keyPosition ||
    (left.keyPosition == right.keyPosition && left.name ≤ right.name)

/-- The order of the foreign keys of a table, and of the columns in each. -/
def KeyRow.precedes (left right : KeyRow) : Bool :=
  right.number < left.number || (left.number == right.number && left.sequence ≤ right.sequence)

/-! ## Reading -/

/-- The key of a row, with an empty target column when the row has none. -/
def KeyRow.reference (row : KeyRow) : Catalog.Reference where
  column := row.column
  table := row.table
  targetColumn := row.targetColumn?.getD ""

namespace Master

/-- The names of the tables, in the order of their creation. -/
def tableNames (master : Master) : List String :=
  ((master.objects.filter ObjectRow.isListed).mergeSort ObjectRow.precedes).map ObjectRow.name

/-- The column rows of a table, in the order of the columns. -/
def columnsOf (master : Master) (table : String) : List ColumnRow :=
  (master.columnRows table).mergeSort ColumnRow.precedes

/-- The columns of the primary key of a table, in the order of the key. -/
def primaryKeyOf (master : Master) (table : String) : List String :=
  let parts := (master.columnsOf table).filter fun row => 0 < row.keyPosition
  (parts.mergeSort ColumnRow.precedesInKey).map ColumnRow.name

/-- The foreign keys of a table, one for each column. -/
def referencesOf (master : Master) (table : String) : List Catalog.Reference :=
  ((master.keyRows table).mergeSort KeyRow.precedes).map KeyRow.reference

/-- The table of a name, before its keys are resolved. -/
def table (master : Master) (name : String) : Catalog.Table where
  name := name
  columns := (master.columnsOf name).map ColumnRow.name
  primaryKey := master.primaryKeyOf name
  references := master.referencesOf name

end Master

/-! ## Implicit targets -/

/-- The column that a key without a target column refers to. -/
def implicitTarget (tables : List Catalog.Table) (name : String) : String :=
  match tables.find? fun table => table.name == name with
  | none => rowColumn
  | some target => target.primaryKey.headD rowColumn

/-- The key with a target column.  An empty one counts as none. -/
def resolve (tables : List Catalog.Table) (reference : Catalog.Reference) : Catalog.Reference :=
  if reference.targetColumn == "" then
    { reference with targetColumn := implicitTarget tables reference.table }
  else reference

/-- The tables with a target column for each of their keys. -/
def resolveAll (tables : List Catalog.Table) : List Catalog.Table :=
  tables.map fun table => { table with references := table.references.map (resolve tables) }

/-- The tables of a database. -/
def Master.tables (master : Master) : List Catalog.Table :=
  resolveAll (master.tableNames.map master.table)

end TreeQuery.Storage
