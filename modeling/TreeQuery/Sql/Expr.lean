import TreeQuery.Json.Writer
import TreeQuery.Sql.Token

/-!
# Expressions

Value and predicate expressions, and the tokens that write them.  Operands of a
weaker binary operator are put in parentheses, and so is everything compound
under `NOT`.
-/

namespace TreeQuery.Sql

/-- A binary operator. -/
inductive BinaryOperator where
  | eq | ne | lt | gt | le | ge | and | or
  deriving DecidableEq

namespace BinaryOperator

/-- How strongly an operator binds. -/
def strength : BinaryOperator → Nat
  | or => 1
  | and => 2
  | eq | ne | lt | gt | le | ge => 3

/-- The token of an operator. -/
def token : BinaryOperator → Token
  | eq => .mark .eq
  | ne => .mark .ne
  | lt => .mark .lt
  | gt => .mark .gt
  | le => .mark .le
  | ge => .mark .ge
  | and => .keyword .AND
  | or => .keyword .OR

end BinaryOperator

/-- What a value may be tested to be. -/
inductive Truth where
  | null | true | false
  deriving DecidableEq

/-- An expression. -/
inductive Expr where
  | column (table : Option String) (name : String)
  | literal (value : Literal)
  | binary (operator : BinaryOperator) (left right : Expr)
  | not (operand : Expr)
  | call (name : String) (arguments : List Expr) (distinct : Bool)
  | member (operand : Expr) (values : List Expr) (negated : Bool)
  | is (operand : Expr) (value : Truth) (negated : Bool)
  | like (operand pattern : Expr) (negated caseless : Bool)
  | star (table : Option String)
  | paren (operand : Expr)
  | window (function : Expr) (partition : List Expr)

/-- The literal of a JSON value.  Integers beyond 64 signed bits become doubles,
and arrays and objects are stored as their text. -/
def Literal.ofJson : Json → Literal
  | .null => .null
  | .bool value => .bool value
  | .int value =>
      if -(Int.pow 2 63) ≤ value ∧ value < Int.pow 2 63 then .int value
      else .float (Double.ofInt? value)
  | .float value => .float (some value)
  | .string value => .string value
  | .array items => .string (Json.array items).compact
  | .object fields => .string (Json.object fields).compact

namespace Expr

/-- A column of a table. -/
def ofTable (table name : String) : Expr :=
  column (some table) name

/-- The literal expression of a JSON value. -/
def ofJson (value : Json) : Expr :=
  literal (Literal.ofJson value)

/-- The conjunction of two expressions. -/
def and (left right : Expr) : Expr :=
  binary .and left right

/-- The disjunction of two expressions. -/
def or (left right : Expr) : Expr :=
  binary .or left right

/-- The number of rows. -/
def countAll : Expr :=
  call "COUNT" [star none] false

/-- The conjunction of a list of conditions, from the left, if there are any. -/
def conjunction? : List Expr → Option Expr
  | [] => none
  | first :: rest => some (rest.foldl and first)

/-- A conjunction is of a kind when its conditions are and `AND` keeps to the kind. -/
theorem forall_mem_conjunction? {kind : Expr → Prop}
    (hand : ∀ {left right : Expr}, kind left → kind right → kind (left.and right))
    {conditions : List Expr} (hconditions : ∀ condition ∈ conditions, kind condition) :
    ∀ condition ∈ conjunction? conditions, kind condition := by
  have hfold (rest : List Expr) : ∀ first : Expr, kind first →
      (∀ condition ∈ rest, kind condition) → kind (rest.foldl and first) := by
    induction rest with
    | nil => exact fun _ hfirst _ => hfirst
    | cons second others ih =>
        intro first hfirst hrest
        obtain ⟨hsecond, hothers⟩ := List.forall_mem_cons.mp hrest
        exact ih (first.and second) (hand hfirst hsecond) hothers
  intro condition hcondition
  cases conditions with
  | nil => cases hcondition
  | cons first rest =>
      obtain ⟨hfirst, hrest⟩ := List.forall_mem_cons.mp hconditions
      cases hcondition
      exact hfold rest first hfirst hrest

/-- Whether an expression is one unit under `NOT`. -/
def isAtomic : Expr → Bool
  | column .. | literal .. | call .. | star .. | paren .. | window .. => true
  | binary .. | not .. | member .. | is .. | like .. => false

/-- Whether an expression needs parentheses as an operand of a binary
operator. -/
def bindsWeakerThan (parent : BinaryOperator) : Expr → Bool
  | binary operator _ _ => operator.strength < parent.strength
  | _ => false

/-- Puts tokens in parentheses when asked to. -/
def grouped (needed : Bool) (tokens : List Token) : List Token :=
  if needed then parenthesized tokens else tokens

/-- The tokens `NOT` in front of what follows, when negated. -/
def negation (negated : Bool) : List Token :=
  if negated then [.keyword .NOT, .blank] else []

/-- The tokens of a column or star behind its table. -/
def tablePrefixed (table : Option String) (tokens : List Token) : List Token :=
  match table with
  | none => tokens
  | some name => .identifier name :: .mark .dot :: tokens

/-- The test that follows the operand of `is`.  Where `IS TRUE` does not exist the
operand is compared with the number of the truth value, which null never
equals. -/
def truthTest (dialect : Dialect) (value : Truth) (negated : Bool) : List Token :=
  let word (keyword : Keyword) : List Token :=
    [.keyword .IS, .blank] ++ negation negated ++ [.keyword keyword]
  let number (truth : Bool) : List Token :=
    [.mark .eq, .blank, .literal (.bool (truth != negated))]
  match value, dialect.hasTruthPredicate with
  | .null, _ => word .NULL
  | .true, true => word .TRUE
  | .false, true => word .FALSE
  | .true, false => number true
  | .false, false => number false

/-- The tokens of an operand brought to lower case. -/
def lowered (tokens : List Token) : List Token :=
  .function "LOWER" :: parenthesized tokens

mutual

/-- The tokens of an expression in a dialect. -/
def tokens (dialect : Dialect) : Expr → List Token
  | column table name => tablePrefixed table [.identifier name]
  | literal value => [.literal value]
  | binary operator left right =>
      grouped (left.bindsWeakerThan operator) (left.tokens dialect) ++
        [.blank, operator.token, .blank] ++
        grouped (right.bindsWeakerThan operator) (right.tokens dialect)
  | not operand =>
      [.keyword .NOT, .blank] ++ grouped (!operand.isAtomic) (operand.tokens dialect)
  | call name arguments distinct =>
      .function name :: parenthesized
        ((if distinct then [.function "DISTINCT", .blank] else []) ++
          commaSeparated (listTokens dialect arguments))
  | member _ [] negated =>
      [.literal (.int 1), .blank, .mark (if negated then .eq else .ne), .blank,
        .literal (.int 1)]
  | member operand (value :: values) negated =>
      operand.tokens dialect ++ [.blank] ++ negation negated ++ [.keyword .IN, .blank] ++
        parenthesized (commaSeparated (listTokens dialect (value :: values)))
  | is operand value negated =>
      operand.tokens dialect ++ [.blank] ++ truthTest dialect value negated
  | like operand pattern negated caseless =>
      if caseless && !dialect.hasCaselessLike then
        lowered (operand.tokens dialect) ++ [.blank] ++ negation negated ++
          [.keyword .LIKE, .blank] ++ lowered (pattern.tokens dialect)
      else
        operand.tokens dialect ++ [.blank] ++ negation negated ++
          [.keyword (if caseless then .ILIKE else .LIKE), .blank] ++ pattern.tokens dialect
  | star table => tablePrefixed table [.mark .star]
  | paren operand => parenthesized (operand.tokens dialect)
  | window function partition =>
      function.tokens dialect ++ [.blank, .keyword .OVER, .blank] ++
        parenthesized
          ((if partition.isEmpty then [] else [.keyword .PARTITION_BY, .blank]) ++
            commaSeparated (listTokens dialect partition))

/-- The tokens of each expression of a list. -/
def listTokens (dialect : Dialect) : List Expr → List (List Token)
  | [] => []
  | first :: rest => first.tokens dialect :: listTokens dialect rest

end

/-- The text of an expression in a dialect. -/
def render (dialect : Dialect) (expression : Expr) : String :=
  Sql.render dialect (expression.tokens dialect)

end Expr

end TreeQuery.Sql
