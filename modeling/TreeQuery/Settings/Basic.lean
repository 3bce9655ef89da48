import TreeQuery.Catalog.Schema
import TreeQuery.Json.Document
import TreeQuery.Toml.Document
import TreeQuery.Settings.Variables

/-!
# Settings

The settings of the program: which database it opens, in which dialect plans are
printed, how records are shaped, and which junctions are chosen.  Everything has
a default, and a document may give any part of it.
-/

namespace TreeQuery

namespace Settings

/-- The database and the dialect of its plans. -/
structure Database where
  path : String := ":memory:"
  dialect : Sql.Dialect := .sqlite

/-- How records are shaped. -/
structure Reading where
  collapses : Bool := true
  totalField : String := "total"

/-- Why there are no settings. -/
inductive Problem where
  | fileNotFound (path : String)
  | unreadable (reason : String)
  | notParsed
  | missingVariable (name : String)
  | emptyTotalField
  | endpointAsInterim (source target : String)
  deriving DecidableEq

/-- The wording of a problem, up to what the parser has to say. -/
def Problem.message : Problem → String
  | fileNotFound path => "Config file not found: " ++ path
  | unreadable reason => "Failed to read config file: " ++ reason
  | notParsed => "Failed to parse config file"
  | missingVariable name => "Missing environment variable: " ++ name
  | emptyTotalField => "Invalid configuration: read.total_field must not be empty"
  | endpointAsInterim source target =>
      "Invalid configuration: junction " ++ source ++ " <-> " ++ target ++
        " cannot use an endpoint as interim"

end Settings

/-- The settings of the program. -/
structure Settings where
  database : Settings.Database := {}
  reading : Settings.Reading := {}
  junctions : List Catalog.Junction := []

namespace Settings

/-! ## Documents -/

/-- The value of a part of the settings, or its default when it is not given. -/
def orDefault? {α : Type} (standard : α) (decode? : Json → Option α) :
    Option Json → Option α
  | none => some standard
  | some document => decode? document

/-- The dialect of a document: its name, or an empty table under its name. -/
def dialect? : Json → Option Sql.Dialect
  | .string name => Sql.Dialect.ofName? name
  | .object [(name, .object [])] => Sql.Dialect.ofName? name
  | .object [(name, .array [])] => Sql.Dialect.ofName? name
  | _ => none

/-- A truth value. -/
def truth? : Json → Option Bool
  | .bool value => some value
  | _ => none

/-- The database settings of a document. -/
def Database.decode? (document : Json) : Option Database :=
  match document.slots? ["path", "dialect"] with
  | some [path, dialect] => do
      let standard : Database := {}
      return {
        path := ← orDefault? standard.path Json.text? path
        dialect := ← orDefault? standard.dialect dialect? dialect }
  | _ => none

/-- The settings of records of a document. -/
def Reading.decode? (document : Json) : Option Reading :=
  match document.slots? ["collapse_none", "total_field"] with
  | some [collapses, totalField] => do
      let standard : Reading := {}
      return {
        collapses := ← orDefault? standard.collapses truth? collapses
        totalField := ← orDefault? standard.totalField Json.text? totalField }
  | _ => none

/-- The junction of a document. -/
def decodeJunction? (document : Json) : Option Catalog.Junction :=
  match document.slots? ["source", "target", "interim"] with
  | some [source, target, interim] => do
      return ⟨← Json.requiredText? source, ← Json.requiredText? target,
        ← Json.requiredText? interim⟩
  | _ => none

/-- The junctions of a document. -/
def decodeJunctions? : Json → Option (List Catalog.Junction)
  | .array items => items.mapM decodeJunction?
  | _ => none

/-- The settings of a document. -/
def decode? (document : Json) : Option Settings :=
  match document.slots? ["database", "read", "junctions"] with
  | some [database, reading, junctions] => do
      return {
        database := ← orDefault? {} Database.decode? database
        reading := ← orDefault? {} Reading.decode? reading
        junctions := ← orDefault? [] decodeJunctions? junctions }
  | _ => none

/-- The document of a junction. -/
def encodeJunction (junction : Catalog.Junction) : Json :=
  .object [("interim", .string junction.interim), ("source", .string junction.first),
    ("target", .string junction.second)]

/-- The document of settings. -/
def encode (settings : Settings) : Json :=
  .object [
    ("database", .object [("dialect", .string settings.database.dialect.name),
      ("path", .string settings.database.path)]),
    ("junctions", .array (settings.junctions.map encodeJunction)),
    ("read", .object [("collapse_none", .bool settings.reading.collapses),
      ("total_field", .string settings.reading.totalField)])]

/-! ## Meaning -/

/-- Accepts a junction that is a table other than the two it links. -/
def checkJunction (junction : Catalog.Junction) : Except Problem Unit :=
  if junction.first = junction.interim ∨ junction.second = junction.interim then
    .error (.endpointAsInterim junction.first junction.second)
  else .ok ()

/-- Accepts settings that make sense. -/
def validate (settings : Settings) : Except Problem Settings := do
  if settings.reading.totalField.isEmpty then throw .emptyTotalField
  settings.junctions.forM checkJunction
  return settings

/-- The settings of a text. -/
def ofText (text : String) : Except Problem Settings :=
  match (Toml.parse? text).bind decode? with
  | none => .error .notParsed
  | some settings => settings.validate

/-- Whether the database is kept in memory. -/
def isInMemory (settings : Settings) : Bool :=
  settings.database.path == ":memory:"

/-- The path of the database with the values of its variables. -/
def resolvedPath (settings : Settings) (environment : Variables) : Except Problem String :=
  (expand environment settings.database.path).mapError Problem.missingVariable

/-- Declarations with the chosen junctions added. -/
def applyJunctions (settings : Settings) (declarations : Catalog.Declarations) :
    Catalog.Declarations :=
  { declarations with junctions := declarations.junctions ++ settings.junctions }

end Settings

end TreeQuery
