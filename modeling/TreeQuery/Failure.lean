import TreeQuery.Catalog.Error
import TreeQuery.Json.Writer
import TreeQuery.Sql.Statement

/-!
# Failures

Why a request is not carried out.  A failure is the request's own fault when the
request names something unknown, is malformed, or does not determine one
statement; connections and extensions fail for reasons of their own.
-/

namespace TreeQuery

/-- Why clauses do not make up a predicate or a sort order. -/
inductive Malformed where
  | missingOperand (path : String)
  | severalResults (path : String) (count : Nat)
  | sortInFilter (column : String)
  | filterInSort (column : String)
  | alternativeSort (path : String)
  | notTruthValue (column : String) (value : Json)
  | mixedCategories
  | refused (reason : String)

/-- The wording of a malformed expression. -/
def Malformed.message : Malformed → String
  | missingOperand path => "logical operator without two operands on '" ++ path ++ "'"
  | severalResults path count =>
      "filter on '" ++ path ++ "' reduces to " ++ toString count ++ " results, expected 1"
  | sortInFilter column => "ordering operator on '" ++ column ++ "' inside a filter"
  | filterInSort column => "filter operator on '" ++ column ++ "' inside an ordering"
  | alternativeSort path => "OR between sort keys on '" ++ path ++ "'"
  | notTruthValue column value =>
      "IS on '" ++ column ++ "' expects null or a boolean, got " ++ value.compact
  | mixedCategories => "expression mixes filter and ordering operators"
  | refused reason => reason

/-- Why a bucket does not determine one statement. -/
inductive Ambiguity where
  | nestedRow
  | rowsWithColumns
  | nothingAsked
  | vacuousFilter
  | sharedFilter (rows : Nat)
  | readBecomes (kind : Sql.StatementKind)
  | writeSelects

/-- The wording of an ambiguity. -/
def Ambiguity.message : Ambiguity → String
  | nestedRow => "row data in a nested bucket"
  | rowsWithColumns => "row data mixed with selected columns"
  | nothingAsked => "bucket has no columns, rows or filter"
  | vacuousFilter => "filter compiles to nothing; refusing to touch every row"
  | sharedFilter rows => toString rows ++ " rows share one update filter"
  | readBecomes kind => "read request compiles to " ++ kind.name
  | writeSelects => "write request selects columns"

/-- Why a connection does not do what it is told. -/
inductive ConnectionError where
  | execution (reason : String)
  | transaction (reason : String)
  | readOnlyStore
  deriving DecidableEq

/-- The wording of a connection error. -/
def ConnectionError.message : ConnectionError → String
  | execution reason => "execution failed: " ++ reason
  | transaction reason => "transaction state: " ++ reason
  | readOnlyStore => "SQLite error: attempt to write a readonly database"

/-- Why a request is not carried out. -/
inductive Failure where
  | schema (problem : Catalog.SchemaError)
  | malformed (reason : Malformed)
  | ambiguous (bucket : String) (reason : Ambiguity)
  | document
  | extension (key message : String)
  | connection (problem : ConnectionError)
  | tooDeep

namespace Failure

/-- The wording of a failure. -/
def message : Failure → String
  | schema problem => problem.message
  | malformed reason => "malformed expression: " ++ reason.message
  | ambiguous bucket reason =>
      "ambiguous operation on '" ++ bucket ++ "': " ++ reason.message
  | document => "invalid request document"
  | extension key message => "extension '" ++ key ++ "' failed: " ++ message
  | connection problem => problem.message
  | tooDeep => "nested reads exceed the depth of the request"

/-- Whether the request itself is at fault. -/
def isRequestError : Failure → Bool
  | schema _ | malformed _ | ambiguous _ _ | document => true
  | extension _ _ | connection _ | tooDeep => false

end Failure

end TreeQuery
