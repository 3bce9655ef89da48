import TreeQuery.Catalog.Resolution
import TreeQuery.Failure
import TreeQuery.Request.Expression

/-!
# Predicates from postfix clauses

Every clause becomes a predicate on its column, or nothing when it asks for
nothing, as a range without ends does.  The markers of the listing combine the
two most recent results; a side that is nothing leaves the other side alone.
-/

namespace TreeQuery.Plan

open Catalog (Lookup Schema)

namespace Predicate

/-- The binary operator of a comparison. -/
def operatorOf : Comparison → Sql.BinaryOperator
  | .eq => .eq
  | .ne => .ne
  | .le => .le
  | .lt => .lt
  | .ge => .ge
  | .gt => .gt

/-- The truth value a document stands for. -/
def truth? : Json → Option Sql.Truth
  | .null => some .null
  | .bool true => some .true
  | .bool false => some .false
  | _ => none

/-- A comparison with a value.  Equality with null is a test of its own. -/
def comparison (column : Sql.Expr) : Comparison → Json → Sql.Expr
  | .eq, .null => .is column .null false
  | .ne, .null => .is column .null true
  | comparison, value => .binary (operatorOf comparison) column (.ofJson value)

/-- A test for null or a truth value. -/
def truthTest (name : String) (column : Sql.Expr) (value : Json) (negated : Bool) :
    Except Failure Sql.Expr :=
  match truth? value with
  | some truth => .ok (.is column truth negated)
  | none => .error (.malformed (.notTruthValue name value))

/-- A match of a pattern anywhere in the column. -/
def contains (column : Sql.Expr) (pattern : String) (caseSensitive negated : Bool) : Sql.Expr :=
  .like column (.literal (.string ("%" ++ pattern ++ "%"))) negated (!caseSensitive)

/-- Membership in a list of values. -/
def member (column : Sql.Expr) (values : List Json) (negated : Bool) : Sql.Expr :=
  .member column (values.map .ofJson) negated

/-- The predicate of a negated operator that has a negative form of its own. -/
def directNegation? (name : String) (column : Sql.Expr) :
    Operator → Option (Except Failure Sql.Expr)
  | .is value => some (truthTest name column value true)
  | .compare .eq value => some (.ok (comparison column .ne value))
  | .like pattern caseSensitive => some (.ok (contains column pattern caseSensitive true))
  | .set values => some (.ok (member column values true))
  | .compare _ _ | .not _ | .range _ _ | .sort _ => none

/-- The conjunction of two predicates of which either may be missing. -/
def both? : Option Sql.Expr → Option Sql.Expr → Option Sql.Expr
  | some left, some right => some (left.and right)
  | some only, none => some only
  | none, right => right

/-- The disjunction of two predicates of which either may be missing. -/
def either? : Option Sql.Expr → Option Sql.Expr → Option Sql.Expr
  | some left, some right => some (left.or right)
  | some only, none => some only
  | none, right => right

mutual

/-- The predicate of an operator on a column, none when it asks for nothing. -/
def ofOperator (name : String) (column : Sql.Expr) :
    Operator → Except Failure (Option Sql.Expr)
  | .compare relation value => .ok (some (comparison column relation value))
  | .is value => (truthTest name column value false).map some
  | .like pattern caseSensitive => .ok (some (contains column pattern caseSensitive false))
  | .set values => .ok (some (member column values false))
  | .not operator =>
      match directNegation? name column operator with
      | some predicate => predicate.map some
      | none => (ofOperator name column operator).map (Option.map Sql.Expr.not)
  | .range lower upper => do
      let lower ← ofBound name column lower
      let upper ← ofBound name column upper
      return both? lower upper
  | .sort _ => .error (.malformed (.sortInFilter name))

/-- The predicate of one end of a range. -/
def ofBound (name : String) (column : Sql.Expr) :
    Option Operator → Except Failure (Option Sql.Expr)
  | none => .ok none
  | some operator => ofOperator name column operator

end

/-- The predicate of a clause on a column of a path. -/
def ofClause (schema : Schema) (path : Path) (clause : Clause) :
    Lookup Failure (Option Sql.Expr) := do
  let column ← (schema.column ⟨clause.column, path⟩).adapt Failure.schema
  match ofOperator clause.column column.expression clause.operator with
  | .ok predicate => return predicate
  | .error failure => throw failure

/-- Combines the two most recent results. -/
def combine (path : Path) (operation : Option Sql.Expr → Option Sql.Expr → Option Sql.Expr) :
    List (Option Sql.Expr) → Except Failure (List (Option Sql.Expr))
  | right :: left :: rest => .ok (operation left right :: rest)
  | _ => .error (.malformed (.missingOperand path.outputName))

/-- The results left after a listing, the most recent first. -/
def reduce (schema : Schema) (path : Path) (results : List (Option Sql.Expr)) :
    Expression → Lookup Failure (List (Option Sql.Expr))
  | [] => return results
  | .clause clause :: rest => do
      reduce schema path ((← ofClause schema path clause) :: results) rest
  | .and :: rest => do
      reduce schema path (← liftExcept (combine path both? results)) rest
  | .or :: rest => do
      reduce schema path (← liftExcept (combine path either? results)) rest

/-- The predicate of an expression on a path. -/
def ofExpression (schema : Schema) (path : Path) (expression : Expression) :
    Lookup Failure (Option Sql.Expr) := do
  if expression.isEmpty then return none
  match ← reduce schema path [] expression with
  | [result] => return result
  | results => throw (.malformed (.severalResults path.outputName results.length))

end Predicate

end TreeQuery.Plan
