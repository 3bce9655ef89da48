import TreeQuery.Proofs.Sql.ReadBack

/-!
# Numbers are written as numerals

Integers and doubles are laid out as digits, a fraction and an exponent that a lexer takes for
one number.
-/

namespace TreeQuery

open Sql.Lexing (Digits Magnitude Numeral)

namespace Decimal

/-- Decimal digits, at least one. -/
def WellFormed (digits : List Nat) : Prop :=
  digits ≠ [] ∧ ∀ digit ∈ digits, digit < 10

theorem digitsOf_wellFormed (value : Nat) : WellFormed (digitsOf value) := by
  induction value using digitsOf.induct with
  | case1 value hvalue =>
      rw [digitsOf, if_pos hvalue]
      exact ⟨List.cons_ne_nil _ _, by simpa using hvalue⟩
  | case2 value hvalue ih =>
      rw [digitsOf, if_neg hvalue]
      refine ⟨by simp, fun digit hdigit => ?_⟩
      rcases List.mem_append.mp hdigit with hdigit | hdigit
      · exact ih.2 digit hdigit
      · rw [List.mem_singleton.mp hdigit]
        exact Nat.mod_lt value (by decide)

theorem firstGrid_wellFormed (interval : Interval) (count : Nat) (exponent : Int) :
    WellFormed (firstGrid interval count exponent).digits := by
  induction count generalizing exponent with
  | zero => exact digitsOf_wellFormed _
  | succ count ih =>
      rw [firstGrid]
      split
      · exact digitsOf_wellFormed _
      · exact ih (exponent - 1)

theorem shortest_wellFormed (rank : Nat) : WellFormed (shortest rank).digits :=
  firstGrid_wellFormed _ _ _

namespace WellFormed

variable {digits : List Nat}

theorem take (hdigits : WellFormed digits) {count : Nat} (hcount : 0 < count) :
    WellFormed (digits.take count) :=
  ⟨by simp [hdigits.1, hcount.ne'],
    fun digit hdigit => hdigits.2 digit (List.mem_of_mem_take hdigit)⟩

theorem drop (hdigits : WellFormed digits) {count : Nat} (hcount : count < digits.length) :
    WellFormed (digits.drop count) :=
  ⟨by simpa using hcount, fun digit hdigit => hdigits.2 digit (List.mem_of_mem_drop hdigit)⟩

theorem mem_zeros_lt {count digit : Nat} (hdigit : digit ∈ List.replicate count 0) :
    digit < 10 := by
  rw [List.eq_of_mem_replicate hdigit]
  decide

theorem append_zeros (hdigits : WellFormed digits) (count : Nat) :
    WellFormed (digits ++ List.replicate count 0) := by
  refine ⟨by simp [hdigits.1], fun digit hdigit => ?_⟩
  rcases List.mem_append.mp hdigit with hdigit | hdigit
  · exact hdigits.2 digit hdigit
  · exact mem_zeros_lt hdigit

theorem zeros_append (hdigits : WellFormed digits) (count : Nat) :
    WellFormed (List.replicate count 0 ++ digits) := by
  refine ⟨by simp [hdigits.1], fun digit hdigit => ?_⟩
  rcases List.mem_append.mp hdigit with hdigit | hdigit
  · exact mem_zeros_lt hdigit
  · exact hdigits.2 digit hdigit

end WellFormed

namespace Layout

theorem digitText_toList (digits : List Nat) :
    (digitText digits).toList = digits.map Nat.digitChar := by
  simp [digitText]

theorem digitText_append (digits others : List Nat) :
    digitText (digits ++ others) = digitText digits ++ digitText others := by
  simp [digitText]

theorem isDigit_digitChar : ∀ digit < 10, (Nat.digitChar digit).isDigit = true := by
  decide

/-- Digits are written as digits. -/
theorem digits_digitText {digits : List Nat} (hdigits : WellFormed digits) :
    Digits (digitText digits).toList := by
  rw [digitText_toList]
  refine ⟨by simpa using hdigits.1, fun character hcharacter => ?_⟩
  obtain ⟨digit, hdigit, rfl⟩ := List.mem_map.mp hcharacter
  exact isDigit_digitChar digit (hdigits.2 digit hdigit)

end Layout

end Decimal

theorem digits_repr (value : Nat) : Digits (toString value).toList := by
  change Digits (Nat.repr value).toList
  rw [Nat.toList_repr]
  exact ⟨Nat.toDigits_ne_nil, fun _ hcharacter =>
    Nat.isDigit_of_mem_toDigits (by decide) (by decide) hcharacter⟩

theorem magnitude_of_digits {digits : List Char} (hdigits : Digits digits) : Magnitude digits :=
  ⟨digits, [], [], by simp, hdigits, .inl rfl, .inl rfl⟩

theorem numeral_of_digits {digits : List Char} (hdigits : Digits digits) : Numeral digits :=
  ⟨[], digits, rfl, .inl rfl, magnitude_of_digits hdigits⟩

/-- A whole part and a fraction make up a number. -/
theorem magnitude_of_fraction {whole digits : List Char} (hwhole : Digits whole)
    (hdigits : Digits digits) : Magnitude (whole ++ '.' :: digits) :=
  ⟨whole, '.' :: digits, [], (List.append_nil _).symm, hwhole, .inr ⟨digits, hdigits, rfl⟩,
    .inl rfl⟩

namespace Decimal.Layout

variable {layout : Layout} (hlayout : layout.plusSign = false)

include hlayout

/-- An exponent is a minus sign or none, and digits. -/
theorem exponentText_parts (exponent : Int) :
    ∃ sign digits, (layout.exponentText exponent).toList = sign ++ digits ∧
      (sign = [] ∨ sign = ['-']) ∧ Digits digits := by
  cases exponent with
  | ofNat value => exact ⟨[], _, by simp [exponentText, hlayout], .inl rfl, digits_repr value⟩
  | negSucc value =>
      exact ⟨['-'], _, by simp [exponentText], .inr rfl, digits_repr (value + 1)⟩

/-- Well-formed digits are laid out as a number, wherever the point stands. -/
theorem magnitude_parts {decimal : Decimal} (hdecimal : WellFormed decimal.digits) :
    Magnitude (layout.magnitude decimal).toList := by
  rw [Layout.magnitude]
  dsimp only
  split
  · split
    · have hwhole := digits_digitText (hdecimal.append_zeros decimal.exponent.toNat)
      rw [digitText_append] at hwhole
      have hzero : Digits ['0'] := ⟨by simp, by simp⟩
      simpa using magnitude_of_fraction hwhole hzero
    · split
      · next hexponent hpoint =>
          have hfirst : 0 < (decimal.digits.length + decimal.exponent).toNat := by omega
          have hlast : (decimal.digits.length + decimal.exponent).toNat <
              decimal.digits.length := by omega
          have hwhole := digits_digitText (hdecimal.take hfirst)
          have hfraction := digits_digitText (hdecimal.drop hlast)
          simpa using magnitude_of_fraction hwhole hfraction
      · have hzero : Digits ['0'] := ⟨by simp, by simp⟩
        have hfraction := digits_digitText (hdecimal.zeros_append
          (-(decimal.digits.length + decimal.exponent)).toNat)
        rw [digitText_append] at hfraction
        simpa using magnitude_of_fraction hzero hfraction
  · obtain ⟨sign, digits, hexponent, hsign, hdigits⟩ := exponentText_parts hlayout
      (decimal.digits.length + decimal.exponent - 1)
    have hwhole := digits_digitText (hdecimal.take Nat.one_pos)
    by_cases hsingle : decimal.digits.length ≤ 1
    · exact ⟨_, [], 'e' :: sign ++ digits, by simp [hsingle, hexponent], hwhole, .inl rfl,
        .inr ⟨sign, digits, hsign, hdigits, rfl⟩⟩
    · have hrest := digits_digitText (hdecimal.drop (Nat.not_le.mp hsingle))
      exact ⟨_, '.' :: (digitText (decimal.digits.drop 1)).toList, 'e' :: sign ++ digits,
        by simp [hsingle, hexponent], hwhole, .inr ⟨_, hrest, rfl⟩,
        .inr ⟨sign, digits, hsign, hdigits, rfl⟩⟩

/-- Every double is written as a number. -/
theorem numeral_render (value : Double) : Numeral (layout.render value).toList := by
  have hmagnitude : Magnitude (if value.rank = 0 then "0.0"
      else layout.magnitude (Decimal.shortest value.rank)).toList := by
    split
    · have hzero : Digits ['0'] := ⟨by simp, by simp⟩
      exact magnitude_of_fraction hzero hzero
    · exact magnitude_parts hlayout (shortest_wellFormed value.rank)
  rw [render]
  cases value.negative with
  | false => exact ⟨[], _, by simp, .inl rfl, hmagnitude⟩
  | true => exact ⟨['-'], _, by simp, .inr rfl, hmagnitude⟩

end Decimal.Layout

/-- Every integer is written as a number. -/
theorem numeral_toString (value : Int) : Numeral (toString value).toList := by
  cases value with
  | ofNat natural => exact numeral_of_digits (digits_repr natural)
  | negSucc natural =>
      have htext : toString (Int.negSucc natural) = "-" ++ toString (natural + 1) := rfl
      exact ⟨['-'], _, by simp [htext], .inr rfl, magnitude_of_digits (digits_repr (natural + 1))⟩

end TreeQuery
