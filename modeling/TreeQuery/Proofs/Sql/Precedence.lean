import Mathlib
import TreeQuery.Proofs.Sql.Reading

/-!
# Reading any expression by precedence

A reader for every expression, by climbing.  `OR` stands at level 1, `AND` at 2,
`NOT` at 3, the comparisons and the tests `IS`, `IN` and `LIKE` at 4, and whatever is one
unit at 5.  Operations of one level associate to the left, and parentheses group.  The
readers get fuel, and each gives what it read and the tokens behind it.
-/

namespace TreeQuery.Sql

/-- The level of an operator. -/
def BinaryOperator.pull : BinaryOperator → Nat
  | or => 1
  | and => 2
  | eq | ne | lt | gt | le | ge => 4

/-- The level of an expression, by what stands at its root. -/
def Expr.level : Expr → Nat
  | binary operator _ _ => operator.pull
  | not _ => 3
  | member .. | is .. | like .. => 4
  | column .. | literal .. | call .. | star .. | paren .. | window .. => 5

/-- What may stand behind an operand. -/
inductive Operation where
  | binary (operator : BinaryOperator)
  | is (truth : Truth) (negated : Bool)
  | like (negated caseless : Bool)
  | member (negated : Bool)
  | window

namespace Operation

/-- The level of an operation. -/
def level : Operation → Nat
  | binary operator => operator.pull
  | is .. | like .. | member .. => 4
  | window => 5

/-- No operation stands at the level of `NOT`. -/
theorem level_ne_three (operation : Operation) : operation.level ≠ 3 := by
  cases operation with
  | binary operator => cases operator <;> simp [level, BinaryOperator.pull]
  | _ => simp [level]

/-- The word `NOT`, when negated. -/
def negation (negated : Bool) : List Token :=
  if negated then [.keyword .NOT] else []

/-- The keyword of a truth value. -/
def truthWord : Truth → Keyword
  | .null => .NULL
  | .true => .TRUE
  | .false => .FALSE

/-- The words of an operation, up to its operand or its list. -/
def words : Operation → List Token
  | binary operator => [operator.token]
  | is truth negated => .keyword .IS :: (negation negated ++ [.keyword (truthWord truth)])
  | like negated caseless =>
      negation negated ++ [.keyword (if caseless then .ILIKE else .LIKE)]
  | member negated => negation negated ++ [.keyword .IN]
  | window => [.keyword .OVER]

/-- The words of a test, behind its `NOT` if it has one. -/
def tested? (negated : Bool) : List Token → Option (Operation × List Token)
  | .keyword .IN :: rest => some (.member negated, rest)
  | .keyword .LIKE :: rest => some (.like negated false, rest)
  | .keyword .ILIKE :: rest => some (.like negated true, rest)
  | _ => none

/-- The operation in front of the tokens. -/
def read? : List Token → Option (Operation × List Token)
  | .mark sign :: rest =>
      (Reading.comparison? sign).map fun operator => (.binary operator, rest)
  | .keyword .AND :: rest => some (.binary .and, rest)
  | .keyword .OR :: rest => some (.binary .or, rest)
  | .keyword .OVER :: rest => some (.window, rest)
  | .keyword .IS :: .keyword .NOT :: .keyword word :: rest =>
      (Reading.truth? word).map fun truth => (.is truth true, rest)
  | .keyword .IS :: .keyword word :: rest =>
      (Reading.truth? word).map fun truth => (.is truth false, rest)
  | .keyword .NOT :: rest => tested? true rest
  | rest => tested? false rest

theorem words_ne_nil (operation : Operation) : operation.words ≠ [] := by
  cases operation <;> simp [words]

/-- The words of an operation read as it, whatever stands behind them. -/
theorem read?_words (operation : Operation) (rest : List Token) :
    read? (operation.words ++ rest) = some (operation, rest) := by
  cases operation with
  | binary operator => cases operator <;> rfl
  | is truth negated => cases negated <;> cases truth <;> rfl
  | like negated caseless => cases negated <;> cases caseless <;> rfl
  | member negated => cases negated <;> rfl
  | window => rfl

theorem eq_words_of_comparison? {sign : Mark} {operator : BinaryOperator}
    (hsign : Reading.comparison? sign = some operator) : operator.token = .mark sign := by
  cases sign <;> cases hsign <;> rfl

theorem eq_word_of_truth? {word : Keyword} {truth : Truth}
    (hword : Reading.truth? word = some truth) : truthWord truth = word := by
  cases word <;> cases hword <;> rfl

theorem words_of_tested? {negated : Bool} {tokens rest : List Token} {operation : Operation}
    (hread : tested? negated tokens = some (operation, rest)) :
    negation negated ++ tokens = operation.words ++ rest := by
  revert hread
  fun_cases tested? negated tokens with
  | case4 => intro hread; cases hread
  | _ => rintro ⟨⟩; simp [words]

/-- Only the words of an operation read as it. -/
theorem words_of_read? {tokens rest : List Token} {operation : Operation}
    (hread : read? tokens = some (operation, rest)) : tokens = operation.words ++ rest := by
  revert hread
  fun_cases read? tokens with
  | case1 sign behind =>
      intro hread
      obtain ⟨operator, hsign, heq⟩ := Option.map_eq_some_iff.mp hread
      cases heq
      rw [words, eq_words_of_comparison? hsign]
      rfl
  | case2 | case3 | case4 => rintro ⟨⟩; rfl
  | case5 word behind =>
      intro hread
      obtain ⟨truth, hword, heq⟩ := Option.map_eq_some_iff.mp hread
      cases heq
      rw [words, eq_word_of_truth? hword]
      rfl
  | case6 word behind =>
      intro hread
      obtain ⟨truth, hword, heq⟩ := Option.map_eq_some_iff.mp hread
      cases heq
      rw [words, eq_word_of_truth? hword]
      rfl
  | case7 behind => exact fun hread => words_of_tested? hread
  | case8 => exact fun hread => words_of_tested? hread

end Operation

namespace Precedence

/-- A column, a star or a literal. -/
def atom? : List Token → Option (Expr × List Token)
  | .identifier table :: .mark .dot :: .identifier name :: rest =>
      some (.column (some table) name, rest)
  | .identifier table :: .mark .dot :: .mark .star :: rest => some (.star (some table), rest)
  | .identifier name :: rest => some (.column none name, rest)
  | .mark .star :: rest => some (.star none, rest)
  | .literal value :: rest => some (.literal value, rest)
  | _ => none

/-- The word `DISTINCT` in front of the arguments of a call, if it is there.  It is no
name of a function. -/
def distinct : List Token → Bool × List Token
  | .function name :: rest =>
      if name = "DISTINCT" then (true, rest) else (false, .function name :: rest)
  | tokens => (false, tokens)

mutual

/-- An expression of at least a level. -/
def expr? : Nat → Nat → List Token → Option (Expr × List Token)
  | 0, _, _ => none
  | fuel + 1, level, tokens =>
      (unit? fuel level tokens).bind fun (left, rest) => extend? fuel level left rest

/-- What an expression of at least a level starts with. -/
def unit? : Nat → Nat → List Token → Option (Expr × List Token)
  | 0, _, _ => none
  | fuel + 1, level, .keyword .NOT :: rest =>
      if level ≤ 3 then (expr? fuel 3 rest).map fun (operand, rest) => (.not operand, rest)
      else none
  | fuel + 1, _, .mark .open :: rest =>
      match expr? fuel 1 rest with
      | some (inner, .mark .close :: rest) => some (.paren inner, rest)
      | _ => none
  | fuel + 1, _, .function name :: .mark .open :: rest =>
      if name = "DISTINCT" then none
      else (arguments? fuel (distinct rest).2).map fun (arguments, behind) =>
        (.call name arguments (distinct rest).1, behind)
  | _ + 1, _, tokens => atom? tokens

/-- Operations of at least a level behind an operand that none of them splits. -/
def extend? : Nat → Nat → Expr → List Token → Option (Expr × List Token)
  | 0, _, _, _ => none
  | fuel + 1, level, left, tokens =>
      match Operation.read? tokens with
      | none => some (left, tokens)
      | some (operation, rest) =>
          if level ≤ operation.level ∧ operation.level ≤ left.level then
            (complete? fuel left operation rest).bind fun (whole, rest) =>
              extend? fuel level whole rest
          else some (left, tokens)

/-- What an operation takes behind its words. -/
def complete? : Nat → Expr → Operation → List Token → Option (Expr × List Token)
  | 0, _, _, _ => none
  | fuel + 1, left, .binary operator, tokens =>
      (expr? fuel (operator.pull + 1) tokens).map fun (right, rest) =>
        (.binary operator left right, rest)
  | _ + 1, left, .is truth negated, tokens => some (.is left truth negated, tokens)
  | fuel + 1, left, .like negated caseless, tokens =>
      (expr? fuel 5 tokens).map fun (pattern, rest) =>
        (.like left pattern negated caseless, rest)
  | fuel + 1, left, .member negated, .mark .open :: tokens =>
      (items? fuel tokens).map fun (values, rest) => (.member left values negated, rest)
  | fuel + 1, left, .window, .mark .open :: .keyword .PARTITION_BY :: tokens =>
      (items? fuel tokens).map fun (partition, rest) => (.window left partition, rest)
  | _ + 1, left, .window, .mark .open :: .mark .close :: tokens =>
      some (.window left [], tokens)
  | _ + 1, _, _, _ => none

/-- The items of a list, up to the parenthesis that closes it. -/
def items? : Nat → List Token → Option (List Expr × List Token)
  | 0, _ => none
  | fuel + 1, tokens =>
      match expr? fuel 1 tokens with
      | some (item, .mark .comma :: rest) =>
          (items? fuel rest).map fun (others, rest) => (item :: others, rest)
      | some (item, .mark .close :: rest) => some ([item], rest)
      | _ => none

/-- The arguments of a call, up to the parenthesis that closes it. -/
def arguments? : Nat → List Token → Option (List Expr × List Token)
  | 0, _ => none
  | _ + 1, .mark .close :: rest => some ([], rest)
  | fuel + 1, tokens => items? fuel tokens

end

/-- The expression that the tokens spell from the first to the last.  Fewer than eight
readers are entered from one word to the next. -/
def read? (tokens : List Token) : Option Expr :=
  match expr? (8 * (Reading.words tokens).length + 6) 1 (Reading.words tokens) with
  | some (expression, []) => some expression
  | _ => none

end Precedence

end TreeQuery.Sql
