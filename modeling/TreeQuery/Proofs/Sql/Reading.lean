import Mathlib
import TreeQuery.Sql.Expr

/-!
# Reading a predicate back from its tokens

A reader for the predicates of a condition, as a store reads them: `OR` binds
weakest, then `AND`, then `NOT`, then the tests `=`, `IS`, `IN` and `LIKE`, and
parentheses group.  `AND` and `OR` associate to the left.  Each function takes its
part from the front of the tokens and gives what follows.
-/

namespace TreeQuery.Sql.Reading

/-- What a reader does with one more fuel it does with enough fuel. -/
theorem forall_fuel {bound : Nat} {outcome : Nat → Prop}
    (hstep : ∀ fuel, bound ≤ fuel → outcome (fuel + 1)) :
    ∀ fuel, bound + 1 ≤ fuel → outcome fuel := by
  intro fuel hfuel
  cases fuel with
  | zero => cases hfuel
  | succ fuel => exact hstep fuel (Nat.le_of_succ_le_succ hfuel)

/-- A column, a literal, or either of them lowered. -/
def value? : List Token → Option (Expr × List Token)
  | .identifier table :: .mark .dot :: .identifier name :: rest =>
      some (.column (some table) name, rest)
  | .identifier name :: rest => some (.column none name, rest)
  | .literal constant :: rest => some (.literal constant, rest)
  | .function "LOWER" :: .mark .open :: rest =>
      match value? rest with
      | some (argument, .mark .close :: rest) => some (.call "LOWER" [argument] false, rest)
      | _ => none
  | _ => none

/-- The literals of a list, up to the parenthesis that closes it. -/
def literals? : List Token → Option (List Expr × List Token)
  | .literal constant :: .mark .close :: rest => some ([.literal constant], rest)
  | .literal constant :: .mark .comma :: rest =>
      (literals? rest).map fun (others, rest) => (.literal constant :: others, rest)
  | _ => none

/-- The operator of a comparison sign. -/
def comparison? : Mark → Option BinaryOperator
  | .eq => some .eq
  | .ne => some .ne
  | .lt => some .lt
  | .gt => some .gt
  | .le => some .le
  | .ge => some .ge
  | .comma | .dot | .star | .open | .close => none

/-- The truth value of a keyword behind `IS`. -/
def truth? : Keyword → Option Truth
  | .NULL => some .null
  | .TRUE => some .true
  | .FALSE => some .false
  | _ => none

/-- A test by `IN`, `LIKE` or `ILIKE` behind its operand. -/
def membership? (operand : Expr) (negated : Bool) : List Token → Option (Expr × List Token)
  | .keyword .IN :: .mark .open :: rest =>
      (literals? rest).map fun (values, rest) => (.member operand values negated, rest)
  | .keyword .LIKE :: rest =>
      (value? rest).map fun (pattern, rest) => (.like operand pattern negated false, rest)
  | .keyword .ILIKE :: rest =>
      (value? rest).map fun (pattern, rest) => (.like operand pattern negated true, rest)
  | _ => none

/-- A test behind its operand. -/
def test? (operand : Expr) : List Token → Option (Expr × List Token)
  | .keyword .IS :: .keyword .NOT :: .keyword word :: rest =>
      (truth? word).map fun truth => (.is operand truth true, rest)
  | .keyword .IS :: .keyword word :: rest =>
      (truth? word).map fun truth => (.is operand truth false, rest)
  | .mark sign :: rest => do
      let operator ← comparison? sign
      let (other, rest) ← value? rest
      return (.binary operator operand other, rest)
  | .keyword .NOT :: rest => membership? operand true rest
  | rest => membership? operand false rest

mutual

/-- Alternatives with `OR` between them. -/
def disjunction? : Nat → List Token → Option (Expr × List Token)
  | 0, _ => none
  | fuel + 1, tokens =>
      (conjunction? fuel tokens).bind fun (first, rest) => alternatives? fuel first rest

/-- Further alternatives behind those read so far. -/
def alternatives? : Nat → Expr → List Token → Option (Expr × List Token)
  | fuel + 1, left, .keyword .OR :: rest =>
      (conjunction? fuel rest).bind fun (right, rest) => alternatives? fuel (left.or right) rest
  | _, left, rest => some (left, rest)

/-- Conditions with `AND` between them. -/
def conjunction? : Nat → List Token → Option (Expr × List Token)
  | 0, _ => none
  | fuel + 1, tokens =>
      (negation? fuel tokens).bind fun (first, rest) => conditions? fuel first rest

/-- Further conditions behind those read so far. -/
def conditions? : Nat → Expr → List Token → Option (Expr × List Token)
  | fuel + 1, left, .keyword .AND :: rest =>
      (negation? fuel rest).bind fun (right, rest) => conditions? fuel (left.and right) rest
  | _, left, rest => some (left, rest)

/-- A test or a group in parentheses, behind any number of `NOT`. -/
def negation? : Nat → List Token → Option (Expr × List Token)
  | 0, _ => none
  | fuel + 1, .keyword .NOT :: rest =>
      (negation? fuel rest).map fun (operand, rest) => (.not operand, rest)
  | fuel + 1, .mark .open :: rest =>
      match disjunction? fuel rest with
      | some (inner, .mark .close :: rest) => some (.paren inner, rest)
      | _ => none
  | _ + 1, tokens => (value? tokens).bind fun (operand, rest) => test? operand rest

end

/-- The tokens that carry meaning. -/
def words (tokens : List Token) : List Token :=
  tokens.filter fun token => token != .blank

/-- The predicate that the tokens spell from the first to the last.  No level of the
grammar is entered more often than there are words, of which there are three levels. -/
def predicate? (tokens : List Token) : Option Expr :=
  match disjunction? (3 * (words tokens).length + 3) (words tokens) with
  | some (predicate, []) => some predicate
  | _ => none

end TreeQuery.Sql.Reading
