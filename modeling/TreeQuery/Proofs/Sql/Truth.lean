import Mathlib
import TreeQuery.Sql.Expr

/-!
# What a predicate says about a row

A predicate is true, false or unknown.  It is unknown where a null value decides,
and `AND`, `OR` and `NOT` treat the unknown as a value that may still turn out
either way.  How values other than null compare is the business of the store, so
it is a parameter here: an engine compares, matches and lowers its data as it
likes, except that a datum equals itself.
-/

namespace TreeQuery.Sql

/-- True, false, or unknown. -/
abbrev Verdict := Option Bool

namespace Verdict

def not : Verdict → Verdict :=
  Option.map Bool.not

def and : Verdict → Verdict → Verdict
  | some false, _ | _, some false => some false
  | some true, some true => some true
  | none, _ | _, none => none

def or : Verdict → Verdict → Verdict
  | some true, _ | _, some true => some true
  | some false, some false => some false
  | none, _ | _, none => none

/-- The verdict, or its negation when asked for. -/
def negatedIf (negated : Bool) (verdict : Verdict) : Verdict :=
  if negated then not verdict else verdict

theorem and_assoc (first second third : Verdict) :
    and (and first second) third = and first (and second third) := by
  rcases first with _ | _ | _ <;> rcases second with _ | _ | _ <;>
    rcases third with _ | _ | _ <;> rfl

theorem or_assoc (first second third : Verdict) :
    or (or first second) third = or first (or second third) := by
  rcases first with _ | _ | _ <;> rcases second with _ | _ | _ <;>
    rcases third with _ | _ | _ <;> rfl

theorem map_negatedIf_false (verdict? : Option Verdict) :
    verdict?.map (negatedIf false) = verdict? := by
  cases verdict? <;> rfl

end Verdict

/-- How a store treats data that are not null. -/
structure Engine where
  Datum : Type
  /-- The datum of a literal that is not null. -/
  constant : Literal → Datum
  equal : Datum → Datum → Bool
  less : Datum → Datum → Bool
  /-- Whether a text matches a pattern. -/
  fits : Datum → Datum → Bool
  lower : Datum → Datum
  /-- Whether a datum counts as true. -/
  holds : Datum → Bool
  equal_self : ∀ datum, equal datum datum = true

namespace Engine

variable (engine : Engine)

/-- The value of a literal, none when it is null. -/
def literal : Literal → Option engine.Datum
  | .null | .float none => none
  | .bool value => some (engine.constant (.bool value))
  | .int value => some (engine.constant (.int value))
  | .float (some value) => some (engine.constant (.float (some value)))
  | .string value => some (engine.constant (.string value))

/-- A test of two values, unknown when one of them is null. -/
def test (holdsFor : engine.Datum → engine.Datum → Bool) :
    Option engine.Datum → Option engine.Datum → Verdict
  | some left, some right => some (holdsFor left right)
  | _, _ => none

/-- The comparison that an operator makes; `AND` and `OR` make none. -/
def compares : BinaryOperator → engine.Datum → engine.Datum → Bool
  | .eq, left, right => engine.equal left right
  | .ne, left, right => !engine.equal left right
  | .lt, left, right => engine.less left right
  | .gt, left, right => engine.less right left
  | .le, left, right => engine.less left right || engine.equal left right
  | .ge, left, right => engine.less right left || engine.equal left right
  | .and, _, _ | .or, _, _ => false

/-- Whether a value equals one of a list: the disjunction of all equations. -/
def among (value : Option engine.Datum) (values : List (Option engine.Datum)) : Verdict :=
  values.foldr (fun other verdict => Verdict.or (engine.test engine.equal value other) verdict)
    (some false)

/-- Whether a value is null, true or false.  The answer is never unknown. -/
def isTruth : Truth → Option engine.Datum → Bool
  | .null, value => value.isNone
  | .true, value => value.any engine.holds
  | .false, value => value.any fun datum => !engine.holds datum

/-- Whether a value matches a pattern; without regard to case, whether the lowered
value matches the lowered pattern. -/
def likeness (caseless : Bool) (value pattern : Option engine.Datum) : Verdict :=
  if caseless then engine.test engine.fits (value.map engine.lower) (pattern.map engine.lower)
  else engine.test engine.fits value pattern

theorem test_not (holdsFor : engine.Datum → engine.Datum → Bool)
    (left right : Option engine.Datum) :
    engine.test (fun one other => !holdsFor one other) left right =
      Verdict.not (engine.test holdsFor left right) := by
  cases left <;> cases right <;> rfl

end Engine

/-- An engine that knows no order and no patterns, and tells literals apart. -/
instance : Inhabited Engine where
  default :=
    { Datum := Literal
      constant := id
      equal := fun left right => left == right
      less := fun _ _ => false
      fits := fun _ _ => false
      lower := id
      holds := fun datum => datum == .bool true
      equal_self := fun datum => beq_self_eq_true datum }

/-- A value for every column, by the name that qualifies it and its own. -/
abbrev Assignment (engine : Engine) := Option String → String → Option engine.Datum

namespace Expr

variable (engine : Engine) (assignment : Assignment engine)

/-- The value of an expression that has one: a column, a literal, or either of them
lowered. -/
def value : Expr → Option engine.Datum
  | column table name => assignment table name
  | literal constant => engine.literal constant
  | call "LOWER" [argument] false => (value argument).map engine.lower
  | paren operand => value operand
  | _ => none

/-- What a predicate says; an expression that is no predicate says nothing. -/
def verdict : Expr → Verdict
  | binary .and left right => Verdict.and (verdict left) (verdict right)
  | binary .or left right => Verdict.or (verdict left) (verdict right)
  | binary operator left right =>
      engine.test (engine.compares operator) (left.value engine assignment)
        (right.value engine assignment)
  | not operand => Verdict.not (verdict operand)
  | member operand values negated =>
      Verdict.negatedIf negated
        (engine.among (operand.value engine assignment)
          (values.map fun other => other.value engine assignment))
  | is operand truth negated =>
      Verdict.negatedIf negated (some (engine.isTruth truth (operand.value engine assignment)))
  | like operand pattern negated caseless =>
      Verdict.negatedIf negated
        (engine.likeness caseless (operand.value engine assignment)
          (pattern.value engine assignment))
  | paren operand => verdict operand
  | _ => none

end Expr

/-- Two predicates that say the same about every row, whatever the engine. -/
def Expr.SaysSame (left right : Expr) : Prop :=
  ∀ (engine : Engine) (assignment : Assignment engine),
    left.verdict engine assignment = right.verdict engine assignment

namespace Expr.SaysSame

variable {first second third : Expr}

theorem refl : first.SaysSame first :=
  fun _ _ => rfl

theorem and_congr {left right left' right' : Expr} (hleft : left.SaysSame left')
    (hright : right.SaysSame right') : (left.and right).SaysSame (left'.and right') := by
  intro engine assignment
  simp only [Expr.and, verdict, hleft engine assignment, hright engine assignment]

theorem or_congr {left right left' right' : Expr} (hleft : left.SaysSame left')
    (hright : right.SaysSame right') : (left.or right).SaysSame (left'.or right') := by
  intro engine assignment
  simp only [Expr.or, verdict, hleft engine assignment, hright engine assignment]

theorem not_congr (hsame : first.SaysSame second) :
    (Expr.not first).SaysSame (Expr.not second) := by
  intro engine assignment
  simp only [verdict, hsame engine assignment]

theorem trans (hfirst : first.SaysSame second) (hsecond : second.SaysSame third) :
    first.SaysSame third :=
  fun engine assignment => (hfirst engine assignment).trans (hsecond engine assignment)

theorem and_assoc : ((first.and second).and third).SaysSame (first.and (second.and third)) := by
  intro engine assignment
  simp only [Expr.and, verdict, Verdict.and_assoc]

theorem or_assoc : ((first.or second).or third).SaysSame (first.or (second.or third)) := by
  intro engine assignment
  simp only [Expr.or, verdict, Verdict.or_assoc]

end Expr.SaysSame

end TreeQuery.Sql
