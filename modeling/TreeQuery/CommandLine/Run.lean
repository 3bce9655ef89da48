import TreeQuery.CommandLine.Help
import TreeQuery.Request.Text
import TreeQuery.Session.Client
import TreeQuery.Settings.Location
import TreeQuery.Storage.Database
import TreeQuery.Storage.Store

/-!
# Running a command

A call of the program is a function of its arguments, the variables and the files
to what is printed and how it ends.  Settings come first, then the database and
its schema, then the invoice.
-/

namespace TreeQuery.CommandLine

open Settings (Variables)
open Storage (Database Declaration Files OpenError ReadError)

/-- Why a command is not carried out, or not to its end. -/
inductive Problem where
  | settings (problem : Settings.Problem)
  | database (problem : OpenError)
  | schema (problem : Catalog.SchemaError)
  | unreadableInvoice (path : String) (problem : ReadError)
  | invalidInvoice
  | request (failure : Failure)

namespace Problem

/-- The wording of a problem. -/
def message : Problem → String
  | settings problem => problem.message
  | database problem => "SQLite error: " ++ problem.message
  | schema problem => problem.message
  | unreadableInvoice path problem => "reading '" ++ path ++ "': " ++ problem.message
  | invalidInvoice => Failure.document.message
  | request failure => failure.message

/-- Whether a text could not be parsed. -/
def isParseProblem : Problem → Bool
  | settings .notParsed | invalidInvoice => true
  | _ => false

end Problem

/-- What a call prints, and the problem that ended it, if there was one. -/
structure Report where
  output : String := ""
  problem? : Option Problem := none

/-- How a call ends. -/
inductive Ending where
  | done (report : Report)
  | unusable

/-- The exit code of an ending. -/
def Ending.exitCode : Ending → Nat
  | done report => if report.problem?.isSome then 1 else 0
  | unusable => 2

/-- The report of a problem. -/
def Report.failed (problem : Problem) : Report where
  problem? := some problem

/-- The settings, where a database given by name replaces that of the file. -/
def settingsOf (files : Files) (environment : Variables) (arguments : Arguments) :
    Except Settings.Problem Settings := do
  let settings ← match arguments.config with
    | some path => Settings.ofFile files path
    | none => Settings.load files environment
  match arguments.database with
  | none => return settings
  | some path => return { settings with database := { settings.database with path } }

/-- The database of the settings. -/
def openDatabase (files : Files) (environment : Variables) (settings : Settings) :
    Except Problem Database := do
  if settings.isInMemory then return { files }
  let name ← (settings.resolvedPath environment).mapError .settings
  (Database.openNamed files name).mapError .database

/-- The schema of the database, with the configured junctions. -/
def schemaOf (settings : Settings) (declarations : List Declaration) :
    Except Problem Catalog.Schema :=
  (settings.applyJunctions { tables := Declaration.tables declarations }).build.mapError .schema

/-- The invoice of a file. -/
def readInvoice (files : Files) (path : String) : Except Problem Invoice := do
  let text ← (files.readText path).mapError (.unreadableInvoice path)
  match Invoice.ofText? text with
  | some invoice => return invoice
  | none => throw .invalidInvoice

/-- Runs work within a new session. -/
def perform {α : Type} (work : Session.Run α) : Except Problem α :=
  (work.run {}).1.mapError .request

/-- What a command works with. -/
structure Setup where
  settings : Settings
  schema : Catalog.Schema
  files : Files
  connection : Session.Connection

/-- Sets a call up: the settings come first, then the database, then its schema. -/
def setUp (files : Files) (environment : Variables) (arguments : Arguments) :
    Except Problem Setup := do
  let settings ← (settingsOf files environment arguments).mapError .settings
  let database ← openDatabase files environment settings
  return {
    settings
    schema := ← schemaOf settings database.declarations
    files := database.files
    connection := Storage.emptyStore database.isReadOnly }

/-- Reads an invoice and writes its views. -/
def readText (setup : Setup) (invoice : Invoice) : Except Problem String := do
  let views ← perform <| Session.readAll {
    schema := setup.schema
    connection := setup.connection
    extensions := Extension.Registry.standard.read
    totalField := setup.settings.reading.totalField
    collapses := setup.settings.reading.collapses } invoice
  return (Json.array (views.map View.encode)).pretty ++ "\n"

/-- Writes an invoice and tells how many rows that changed. -/
def writeText (setup : Setup) (invoice : Invoice) : Except Problem String := do
  let count ← perform <| Session.writeAll
    { schema := setup.schema, connection := setup.connection }
    Extension.Registry.standard invoice
  return toString count.toNat ++ " row(s) affected\n"

/-- The statement of a bucket under a heading. -/
def statementText (dialect : Sql.Dialect) (bucket : Bucket) (statement : Sql.Statement) : String :=
  "-- " ++ bucket.name ++ " (" ++ statement.kind.name ++ ")\n" ++
    statement.render dialect ++ ";\n\n"

/-- The statements of an invoice, up to the first bucket that has none. -/
def planReport (planner : Plan.Planner) (dialect : Sql.Dialect) (memo : Catalog.Memo) :
    Invoice → Report
  | [] => {}
  | bucket :: rest =>
      match (planner.build bucket).run memo with
      | (.error failure, _) => .failed (.request failure)
      | (.ok statement, memo) =>
          let report := planReport planner dialect memo rest
          { report with output := statementText dialect bucket statement ++ report.output }

/-- An entry of a list. -/
def entry (text : String) : String :=
  "  - " ++ text ++ "\n"

/-- How one table is related to another, if it is or the answer is an error. -/
def linkEntry (schema : Catalog.Schema) (source target : String) : StateM Catalog.Memo String := do
  if source = target then return ""
  let heading := source ++ " -> " ++ target ++ ": "
  match ← (schema.link? [{ name := source }] [{ name := target }]).run with
  | .ok (some link) => return entry (heading ++ link.text)
  | .ok none => return ""
  | .error problem => return entry (heading ++ problem.message)

/-- The tables, keys and links of a schema. -/
def schemaText (schema : Catalog.Schema) : String :=
  let names := schema.tables.map Catalog.Table.name
  let links := (names.flatMap fun source => names.map fun target => (source, target)).mapM
    fun (source, target) => linkEntry schema source target
  let tables := schema.tables.map fun table =>
    entry (table.name ++ " (" ++ ", ".intercalate table.columns ++ ")")
  "Tables:\n" ++ String.join tables ++
    "\nForeign keys:\n" ++
    String.join (schema.graph.foreignKeys.map fun key => entry key.text) ++
    "\nLinks:\n" ++ String.join (links.run {}).1

/-- The report of a text or of the problem in its place. -/
def Report.ofText : Except Problem String → Report
  | .ok output => { output }
  | .error problem => .failed problem

/-- Carries out a command. -/
def runCommand (setup : Setup) : Command → Report
  | .read path => .ofText do readText setup (← readInvoice setup.files path)
  | .write path => .ofText do writeText setup (← readInvoice setup.files path)
  | .plan path dialect =>
      match readInvoice setup.files path with
      | .error problem => .failed problem
      | .ok invoice =>
          planReport { schema := setup.schema, totalField := setup.settings.reading.totalField }
            (dialect.getD setup.settings.database.dialect) {} invoice
  | .schema => { output := schemaText setup.schema }

/-- Carries out a call. -/
def runArguments (files : Files) (environment : Variables) (arguments : Arguments) : Report :=
  match setUp files environment arguments with
  | .error problem => .failed problem
  | .ok setup => runCommand setup arguments.command

/-- What a call of the program prints and how it ends. -/
def run (files : Files) (environment : Variables) (arguments : List String) : Ending :=
  match Intent.ofArguments arguments with
  | .run arguments => .done (runArguments files environment arguments)
  | .help topic => .done { output := topic.text }
  | .version => .done { output := versionText ++ "\n" }
  | .unusable => .unusable

end TreeQuery.CommandLine
