import TreeQuery.Decimal.Layout
import TreeQuery.Sql.Dialect

/-!
# Tokens

Statements are written as lists of tokens.  Keywords, punctuation and blanks
look the same in every dialect; names and literals are written by the rules of
the dialect.
-/

namespace TreeQuery.Sql

/-- A keyword. -/
inductive Keyword where
  | SELECT | FROM | WHERE | AND | OR | NOT | AS | ON | JOIN | INNER | LEFT | ORDER_BY | ASC | DESC
  | LIMIT | OFFSET | FETCH | NEXT | ROWS | ONLY | IN | LIKE | ILIKE | IS | NULL | TRUE | FALSE
  | OVER | PARTITION_BY | INSERT | INTO | VALUES | UPDATE | SET | DELETE
  deriving DecidableEq

/-- Every keyword. -/
def Keyword.all : List Keyword :=
  [SELECT, FROM, WHERE, AND, OR, NOT, AS, ON, JOIN, INNER, LEFT, ORDER_BY, ASC, DESC, LIMIT,
   OFFSET, FETCH, NEXT, ROWS, ONLY, IN, LIKE, ILIKE, IS, NULL, TRUE, FALSE, OVER, PARTITION_BY,
   INSERT, INTO, VALUES, UPDATE, SET, DELETE]

/-- The spelling of a keyword. -/
def Keyword.text : Keyword → String
  | SELECT => "SELECT"
  | FROM => "FROM"
  | WHERE => "WHERE"
  | AND => "AND"
  | OR => "OR"
  | NOT => "NOT"
  | AS => "AS"
  | ON => "ON"
  | JOIN => "JOIN"
  | INNER => "INNER"
  | LEFT => "LEFT"
  | ORDER_BY => "ORDER BY"
  | ASC => "ASC"
  | DESC => "DESC"
  | LIMIT => "LIMIT"
  | OFFSET => "OFFSET"
  | FETCH => "FETCH"
  | NEXT => "NEXT"
  | ROWS => "ROWS"
  | ONLY => "ONLY"
  | IN => "IN"
  | LIKE => "LIKE"
  | ILIKE => "ILIKE"
  | IS => "IS"
  | NULL => "NULL"
  | TRUE => "TRUE"
  | FALSE => "FALSE"
  | OVER => "OVER"
  | PARTITION_BY => "PARTITION BY"
  | INSERT => "INSERT"
  | INTO => "INTO"
  | VALUES => "VALUES"
  | UPDATE => "UPDATE"
  | SET => "SET"
  | DELETE => "DELETE"

/-- A punctuation mark or comparison sign. -/
inductive Mark where
  | comma | dot | star | open | close | eq | ne | lt | gt | le | ge
  deriving DecidableEq

/-- The spelling of a mark. -/
def Mark.text : Mark → String
  | comma => ","
  | dot => "."
  | star => "*"
  | .open => "("
  | close => ")"
  | eq => "="
  | ne => "<>"
  | lt => "<"
  | gt => ">"
  | le => "<="
  | ge => ">="

/-- A literal value.  A double that is not finite has no value here. -/
inductive Literal where
  | null
  | bool (value : Bool)
  | int (value : Int)
  | float (value : Option Double)
  | string (value : String)
  deriving DecidableEq

/-- A token of a statement. -/
inductive Token where
  | keyword (word : Keyword)
  | mark (mark : Mark)
  | blank
  | newline
  | indent (levels : Nat)
  | identifier (name : String)
  | qualified (schema : Option String) (name : String)
  | literal (value : Literal)
  | function (name : String)
  deriving DecidableEq

/-- Doubles in statements are positional from `0.00001` up to sixteen digits,
and exponents carry no plus sign. -/
def floatLayout : Decimal.Layout := ⟨-4, 16, false⟩

/-- A literal in the spelling of a dialect.  Doubles that are not finite have no
literal and are null. -/
def Literal.render (dialect : Dialect) : Literal → String
  | null => "NULL"
  | bool value => dialect.truthText value
  | int value => toString value
  | float (some value) => floatLayout.render value
  | float none => "NULL"
  | string value => dialect.quoteString value

/-- A token in the spelling of a dialect.  Function names are written in upper
case. -/
def Token.render (dialect : Dialect) : Token → String
  | keyword word => word.text
  | mark sign => sign.text
  | blank => " "
  | newline => "\n"
  | indent levels => String.ofList (List.replicate (2 * levels) ' ')
  | identifier name => dialect.quoteIdentifier name
  | qualified none name => dialect.quoteIdentifier name
  | qualified (some schema) name =>
      dialect.quoteIdentifier schema ++ "." ++ dialect.quoteIdentifier name
  | literal value => value.render dialect
  | function name => Text.uppercase name

/-- The text of a list of tokens. -/
def render (dialect : Dialect) (tokens : List Token) : String :=
  String.join (tokens.map (Token.render dialect))

/-- Lists of tokens with a comma and a blank between them. -/
def commaSeparated (items : List (List Token)) : List Token :=
  [Token.mark .comma, Token.blank].intercalate items

/-- Tokens in parentheses. -/
def parenthesized (tokens : List Token) : List Token :=
  Token.mark .open :: tokens ++ [Token.mark .close]

end TreeQuery.Sql
