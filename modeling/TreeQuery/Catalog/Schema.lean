import TreeQuery.Catalog.KeyGraph
import TreeQuery.Catalog.Link
import TreeQuery.Sql.Select

/-!
# Schemas

A schema is built from declared tables, from foreign keys that the tables do
not declare themselves, and from chosen junctions.  It resolves tables, columns
and links; links are tried from many-to-one over one-to-many to many-to-many.
-/

namespace TreeQuery.Catalog

/-- The choice of a junction table between two tables, in both directions. -/
structure Junction where
  first : String
  second : String
  interim : String
  deriving DecidableEq

/-- What a schema is built from. -/
structure Declarations where
  tables : List Table := []
  customKeys : List ForeignKey := []
  junctions : List Junction := []

/-- A catalogue of tables. -/
structure Schema where
  tables : List Table
  graph : KeyGraph
  junctions : List Junction
  deriving DecidableEq

/-- A column together with the table reference it belongs to and its name in the
result. -/
structure ResolvedColumn where
  table : Sql.TableRef
  name : String
  resultName : String
  deriving DecidableEq

namespace ResolvedColumn

/-- The reference to the column. -/
def expression (column : ResolvedColumn) : Sql.Expr :=
  .ofTable column.table.reference column.name

/-- The column as a select item. -/
def item (column : ResolvedColumn) : Sql.SelectItem where
  expression := column.expression
  aliasName := some column.resultName

end ResolvedColumn

namespace Declarations

/-- Puts a table in place of the one of the same name, or at the end. -/
def putTable (tables : List Table) (table : Table) : List Table :=
  if tables.any fun other => other.name == table.name then
    tables.map fun other => if other.name == table.name then table else other
  else tables ++ [table]

/-- Lists a column on the table of a name. -/
def listColumn (tables : List Table) (name column : String) : List Table :=
  tables.map fun table => if table.name == name then table.withColumn column else table

/-- The graph of the declared keys. -/
def declaredGraph (tables : List Table) : Except SchemaError KeyGraph :=
  let nodes := tables.foldl (fun graph table => graph.addTable table.name) {}
  (tables.flatMap Table.foreignKeys).foldlM KeyGraph.addForeignKey nodes

/-- Adds one custom key.  Its owner must be declared and lists the key's column
from then on. -/
def addCustomKey (state : List Table × KeyGraph) (key : ForeignKey) :
    Except SchemaError (List Table × KeyGraph) := do
  if state.1.any fun table => table.name == key.table then
    let graph ← state.2.addForeignKey key
    return (listColumn state.1 key.table key.column, graph)
  else throw (.unknownTable key.table)

/-- Accepts a junction whose table exists. -/
def checkJunction (graph : KeyGraph) (junction : Junction) : Except SchemaError Unit :=
  if graph.contains junction.interim then .ok () else .error (.unknownTable junction.interim)

/-- Builds a schema.  A table declared twice keeps its last definition and all of
its keys, and every referenced column is listed on its table. -/
def build (declarations : Declarations) : Except SchemaError Schema := do
  let tables := declarations.tables.map Table.withKeyColumns
  let graph ← declaredGraph tables
  let (owners, complete) ←
    declarations.customKeys.foldlM addCustomKey (tables.foldl putTable [], graph)
  let targets := complete.foreignKeys.foldl
    (fun tables key => listColumn tables key.targetTable key.targetColumn) owners
  declarations.junctions.forM (checkJunction complete)
  return ⟨targets, complete, declarations.junctions⟩

end Declarations

namespace Schema

/-- The definition of a table. -/
def tableNamed? (schema : Schema) (name : String) : Option Table :=
  schema.tables.find? fun table => table.name == name

/-- Whether a table exists and lists a column. -/
def hasColumn (schema : Schema) (table column : String) : Bool :=
  match schema.tableNamed? table with
  | none => false
  | some definition => definition.hasColumn column

/-- The reference to the table of a path's innermost step.  A step with a
qualifier or label gets the path's output name as alias, so that one table can
occur several times in a statement. -/
def tableRef? (schema : Schema) (path : Path) : Option Sql.TableRef := do
  let step ← path.getLast?
  let table ← schema.tableNamed? step.name
  return {
    schema := table.schema
    table := table.name
    aliasName := if step.isAliased then some path.outputName else none }

/-- The junction chosen for a pair of tables; the last choice counts. -/
def chosenJunction? (schema : Schema) (source target : String) : Option String :=
  (schema.junctions.reverse.find? fun junction =>
    (junction.first == source && junction.second == target) ||
      (junction.first == target && junction.second == source)).map Junction.interim

/-- The link by the first key of the source's table that leads to the target. -/
def manyToOne? (schema : Schema) (source target : Path) (targetStep : Step) : Option Link :=
  ((schema.graph.outgoing source.tableName).find? fun key => key.leadsTo targetStep).map
    fun key => .manyToOne ⟨key.column, source⟩ ⟨key.targetColumn, target⟩

/-- The link by the first key of the target's table that leads back to the
source, on the column that the target's qualifier names. -/
def oneToMany? (schema : Schema) (source target : Path) (sourceStep targetStep : Step) :
    Option Link :=
  let parent : Step := { name := sourceStep.name, qualifier := targetStep.qualifier }
  ((schema.graph.outgoing targetStep.name).find? fun key => key.leadsTo parent).map
    fun key => .oneToMany ⟨key.targetColumn, source⟩ ⟨key.column, target⟩

/-- The keys of a junction table to the source's table and to the target: the
first key to the target, and the first key on another column to the source's
table. -/
def junctionKeys? (schema : Schema) (interim : String) (sourceStep targetStep : Step) :
    Option (ForeignKey × ForeignKey) := do
  let keys := schema.graph.outgoing interim
  let toTarget ← keys.find? fun key => key.leadsTo targetStep
  let toSource ← keys.find? fun key =>
    key.leadsTo sourceStep.bare && key.column != toTarget.column
  return (toSource, toTarget)

/-- The link through a junction table. -/
def junctionLink (source target : Path) (interim : String) (toSource toTarget : ForeignKey) :
    Link :=
  let junction : Path := [{ name := interim }]
  .manyToMany ⟨toSource.targetColumn, source⟩ ⟨toSource.column, junction⟩
    ⟨toTarget.column, junction⟩ ⟨toTarget.targetColumn, target⟩

/-- The tables other than the two that own keys to both. -/
def junctionCandidates (schema : Schema) (sourceStep targetStep : Step) :
    List (String × ForeignKey × ForeignKey) :=
  schema.graph.tables.filterMap fun table =>
    if table == sourceStep.name || table == targetStep.name then none
    else (schema.junctionKeys? table sourceStep targetStep).map (table, ·)

/-- The link through the chosen junction, or else through the only candidate. -/
def manyToMany? (schema : Schema) (source target : Path) (sourceStep targetStep : Step) :
    Except SchemaError (Option Link) :=
  match schema.chosenJunction? sourceStep.name targetStep.name with
  | some interim =>
      match schema.junctionKeys? interim sourceStep targetStep with
      | some (toSource, toTarget) =>
          .ok (some (junctionLink source target interim toSource toTarget))
      | none => .error (.invalidJunction sourceStep.name targetStep.name interim)
  | none =>
      match schema.junctionCandidates sourceStep targetStep with
      | [] => .ok none
      | [(interim, toSource, toTarget)] =>
          .ok (some (junctionLink source target interim toSource toTarget))
      | candidates =>
          .error (.ambiguousJunction sourceStep.name targetStep.name
            (candidates.map fun candidate => candidate.1))

/-- How two paths are related, if they are. -/
def linkBetween (schema : Schema) (source target : Path) : Except SchemaError (Option Link) :=
  match source.getLast?, target.getLast? with
  | some sourceStep, some targetStep =>
      match schema.manyToOne? source target targetStep with
      | some link => .ok (some link)
      | none =>
          match schema.oneToMany? source target sourceStep targetStep with
          | some link => .ok (some link)
          | none => schema.manyToMany? source target sourceStep targetStep
  | _, _ => .ok none

/-- Two paths are related in at most one way. -/
theorem linkBetween_unique {schema : Schema} {source target : Path} {link other : Link}
    (hlink : schema.linkBetween source target = .ok (some link))
    (hother : schema.linkBetween source target = .ok (some other)) : link = other :=
  Option.some.inj (Except.ok.inj (hlink.symm.trans hother))

end Schema

end TreeQuery.Catalog
