import TreeQuery.Json.Value
import TreeQuery.Sql.Select

/-!
# Operators of a clause

An operator either filters rows or orders them.  Operators nest: a negation
holds one, and a range holds an optional one for each of its ends.
-/

namespace TreeQuery

/-- A comparison of a column with a value. -/
inductive Comparison where
  | eq | ne | le | lt | ge | gt
  deriving DecidableEq

/-- Whether rows are filtered or ordered. -/
inductive Category where
  | filter | order
  deriving DecidableEq

/-- What a clause asks of its column. -/
inductive Operator where
  | compare (comparison : Comparison) (value : Json)
  | is (value : Json)
  | like (pattern : String) (caseSensitive : Bool)
  | not (operator : Operator)
  | set (values : List Json)
  | range (lower upper : Option Operator)
  | sort (direction : Sql.Direction)

namespace Operator

/-- The category of an operator.  Only a sort direction on its own orders rows;
the negation of one is a filter. -/
def category : Operator → Category
  | sort _ => .order
  | _ => .filter

/-- A match of a pattern anywhere in the column. -/
def containing (pattern : String) : Operator :=
  like pattern true

/-- A match of a pattern anywhere in the column, without regard to case. -/
def containingCaseless (pattern : String) : Operator :=
  like pattern false

end Operator

end TreeQuery
