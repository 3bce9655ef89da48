import TreeQuery.Sql.Quoting
import TreeQuery.Text.Case

/-!
# Dialects

The five dialects of SQL differ in how they quote identifiers and strings, how
they spell truth values, and which predicates and paging clauses they have.
-/

namespace TreeQuery.Sql

/-- A dialect of SQL. -/
inductive Dialect where
  | duckdb
  | postgres
  | mysql
  | tsql
  | sqlite
  deriving DecidableEq

namespace Dialect

/-- Every dialect. -/
def all : List Dialect :=
  [duckdb, postgres, mysql, tsql, sqlite]

/-- The dialect used where none is chosen. -/
def standard : Dialect :=
  duckdb

/-- The name of a dialect. -/
def name : Dialect → String
  | duckdb => "duckdb"
  | postgres => "postgres"
  | mysql => "mysql"
  | tsql => "tsql"
  | sqlite => "sqlite"

/-- The dialect of exactly this name. -/
def ofName? (name : String) : Option Dialect :=
  all.find? fun dialect => dialect.name == name

/-- The names under which a dialect may be asked for, in lower case. -/
def commonNames : List (String × Dialect) :=
  [("duckdb", duckdb), ("postgres", postgres), ("postgresql", postgres), ("pg", postgres),
   ("mysql", mysql), ("tsql", tsql), ("mssql", tsql), ("sqlserver", tsql),
   ("sqlite", sqlite), ("sqlite3", sqlite)]

/-- The dialect asked for by one of its common names in any case; otherwise the
name in lower case. -/
def ofCommonName (name : String) : Except String Dialect :=
  let lowered := Text.lowercase name
  match commonNames.lookup lowered with
  | some dialect => .ok dialect
  | none => .error lowered

/-- An identifier in the quotes of the dialect. -/
def quoteIdentifier (dialect : Dialect) (identifier : String) : String :=
  let characters := identifier.toList
  String.ofList <| match dialect with
    | duckdb | postgres | sqlite => enclosed '"' '"' characters
    | mysql => enclosed (Char.ofNat 96) (Char.ofNat 96) characters
    | tsql => enclosed '[' ']' characters

/-- A string in the quotes of the dialect.  A backslash is an escape character
in MySQL strings, and T-SQL marks strings beyond ASCII with an `N`. -/
def quoteString (dialect : Dialect) (text : String) : String :=
  let characters := text.toList
  String.ofList <| match dialect with
    | duckdb | postgres | sqlite => enclosed '\'' '\'' characters
    | mysql => enclosed '\'' '\'' (doubled '\\' characters)
    | tsql =>
        if characters.all fun character => character.toNat < 128 then
          enclosed '\'' '\'' characters
        else 'N' :: enclosed '\'' '\'' characters

/-- Whether truth values are written as words and not as numbers. -/
def writesTruthAsWord : Dialect → Bool
  | duckdb | postgres => true
  | mysql | tsql | sqlite => false

/-- A truth value. -/
def truthText (dialect : Dialect) (value : Bool) : String :=
  match dialect.writesTruthAsWord, value with
  | true, true => "true"
  | true, false => "false"
  | false, true => "1"
  | false, false => "0"

/-- Whether a predicate for matching without regard to case exists.  Elsewhere
both sides are brought to lower case. -/
def hasCaselessLike : Dialect → Bool
  | duckdb | postgres => true
  | mysql | tsql | sqlite => false

/-- Whether `IS TRUE` and `IS FALSE` exist. -/
def hasTruthPredicate : Dialect → Bool
  | tsql => false
  | duckdb | postgres | mysql | sqlite => true

/-- Whether paging is allowed only after a sort order. -/
def pagesOnlySorted : Dialect → Bool
  | tsql => true
  | duckdb | postgres | mysql | sqlite => false

end Dialect

end TreeQuery.Sql
