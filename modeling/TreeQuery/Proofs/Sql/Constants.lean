import TreeQuery.Proofs.Decimal.Nearest
import TreeQuery.Proofs.Sql.Truth

/-!
# What constants stand for

A constant of a request stands for itself: a number for that number, whatever its size, and
an array or an object for its text.  Nothing is said here of the literal that it is written
as.  That literal has the same value, except where an integer needs more than a signed word
of 64 bits: it is written as a double then, one of those nearest to it.
-/

namespace TreeQuery

/-- Whether a constant has a literal of its own value in every engine: an integer has one
if it fits in a signed word of 64 bits. -/
def Json.FitsWord : Json → Prop
  | .int value => -(2 ^ 63) ≤ value ∧ value < 2 ^ 63
  | _ => True

instance : DecidablePred Json.FitsWord
  | .int value => inferInstanceAs (Decidable (-(2 ^ 63) ≤ value ∧ value < 2 ^ 63))
  | .null | .bool _ | .float _ | .string _ | .array _ | .object _ => .isTrue trivial

namespace Sql.Engine

variable (engine : Engine)

/-- The value that a constant stands for, none for null. -/
def valueOf : Json → Option engine.Datum
  | .null => none
  | .bool value => some (engine.constant (.bool value))
  | .int value => some (engine.constant (.int value))
  | .float value => some (engine.constant (.float (some value)))
  | .string text => some (engine.constant (.string text))
  | .array items => some (engine.constant (.string (Json.array items).compact))
  | .object fields => some (engine.constant (.string (Json.object fields).compact))

/-- The values of constants where integers beyond a signed word of 64 bits are rounded. -/
def roundedValueOf (rounded : Int → Option Double) : Json → Option engine.Datum
  | .int value =>
      if -(2 ^ 63) ≤ value ∧ value < 2 ^ 63 then some (engine.constant (.int value))
      else (rounded value).map fun nearest => engine.constant (.float (some nearest))
  | constant => engine.valueOf constant

/-- Nothing is rounded that fits. -/
theorem roundedValueOf_of_fitsWord {rounded : Int → Option Double} {constant : Json}
    (hfits : constant.FitsWord) :
    engine.roundedValueOf rounded constant = engine.valueOf constant := by
  cases constant with
  | int value => exact if_pos hfits
  | null | bool _ | float _ | string _ | array _ | object _ => rfl

/-- An integer that does not fit has the value of a double. -/
theorem roundedValueOf_of_not_fitsWord {rounded : Int → Option Double} {value : Int}
    {nearest : Double} (hlarge : ¬ (Json.int value).FitsWord)
    (hrounded : rounded value = some nearest) :
    engine.roundedValueOf rounded (.int value) =
      some (engine.constant (.float (some nearest))) := by
  change ¬ (-(2 ^ 63) ≤ value ∧ value < 2 ^ 63) at hlarge
  rw [roundedValueOf, if_neg hlarge, hrounded]
  rfl

/-- The values of the literals that constants are written as. -/
def writtenValueOf (constant : Json) : Option engine.Datum :=
  engine.literal (.ofJson constant)

/-- Only integers are rounded where constants are written. -/
theorem writtenValueOf_eq : engine.writtenValueOf = engine.roundedValueOf Double.ofInt? := by
  funext constant
  rw [writtenValueOf]
  cases constant with
  | int value =>
      have hpower : Int.pow 2 63 = 2 ^ 63 := rfl
      rw [Literal.ofJson, hpower, roundedValueOf]
      split_ifs
      · rfl
      · cases Double.ofInt? value <;> rfl
  | null | bool _ | float _ | string _ | array _ | object _ => rfl

/-- An engine of numbers, counted in units of `2 ^ -1074` so that every double is one. -/
def numbers : Engine where
  Datum := Int
  constant
    | .int value => value * Double.unitsPerOne
    | .float (some value) => value.inUnits
    | _ => 0
  equal left right := left == right
  less left right := decide (left < right)
  fits _ _ := false
  lower := id
  holds datum := datum != 0
  equal_self := beq_self_eq_true

/-- Among numbers, rounding leaves an integer alone exactly if it need not be rounded or a
double has its value. -/
theorem numbers_roundedValueOf_eq_iff {rounded : Int → Option Double} {value : Int}
    {nearest : Double} (hrounded : rounded value = some nearest)
    (hnearest : nearest.IsNearest value) :
    numbers.roundedValueOf rounded (.int value) = numbers.valueOf (.int value) ↔
      (Json.int value).FitsWord ∨
        ∃ double : Double, double.inUnits = value * Double.unitsPerOne := by
  by_cases hfits : (Json.int value).FitsWord
  · exact iff_of_true (roundedValueOf_of_fitsWord numbers hfits) (.inl hfits)
  · rw [roundedValueOf_of_not_fitsWord numbers hfits hrounded]
    constructor
    · intro hsame
      exact .inr ⟨nearest, Option.some.inj hsame⟩
    · rintro (hfit | ⟨double, hdouble⟩)
      · exact absurd hfit hfits
      · have hdistance := hnearest double
        rw [hdouble, sub_self, abs_zero, abs_nonpos_iff, sub_eq_zero] at hdistance
        exact congrArg some hdistance.symm

end Sql.Engine

end TreeQuery
