import TreeQuery.Decimal.Layout
import TreeQuery.Proofs.Decimal.Shortest
import TreeQuery.Proofs.Sql.Numerals

/-!
# The text of a double identifies it

A number is read from its text: digits, a fraction and an exponent.  Every layout of a
decimal reads as the value of the decimal, wherever the point stands, so different
doubles have different texts.  The text of an integer has neither point nor exponent.
-/

namespace TreeQuery.Decimal

/-! ## Reading a text -/

/-- The digits behind a point, if there is one, and what follows. -/
def fractionOf : List Char → List Char × List Char
  | '.' :: rest => (rest.takeWhile Char.isDigit, rest.dropWhile Char.isDigit)
  | rest => ([], rest)

/-- The exponent, if there is one. -/
def exponentOf : List Char → Int
  | 'e' :: '-' :: digits => -(Nat.ofDigitChars 10 digits 0 : Int)
  | 'e' :: '+' :: digits => Nat.ofDigitChars 10 digits 0
  | 'e' :: digits => Nat.ofDigitChars 10 digits 0
  | _ => 0

/-- The number that a text without a sign stands for. -/
def valueOf (text : List Char) : ℚ :=
  let (fraction, rest) := fractionOf (text.dropWhile Char.isDigit)
  Nat.ofDigitChars 10 (text.takeWhile Char.isDigit ++ fraction) 0 *
    (10 : ℚ) ^ (exponentOf rest - fraction.length)

/-- The characters of digits. -/
def digitChars (digits : List Nat) : List Char :=
  digits.map Nat.digitChar

@[simp] theorem length_digitChars (digits : List Nat) :
    (digitChars digits).length = digits.length :=
  List.length_map _

theorem digitChars_append (digits others : List Nat) :
    digitChars (digits ++ others) = digitChars digits ++ digitChars others :=
  List.map_append

theorem toNat_digitChar : ∀ digit < 10, (Nat.digitChar digit).toNat - 48 = digit := by
  decide

theorem ofDigitChars_digitChars {digits : List Nat} (hdigits : ∀ digit ∈ digits, digit < 10) :
    Nat.ofDigitChars 10 (digitChars digits) 0 = significand digits := by
  induction digits using List.reverseRecOn with
  | nil => rfl
  | append_singleton digits digit ih =>
      have hlast : digit < 10 := hdigits digit (by simp)
      rw [digitChars_append, Nat.ofDigitChars_append, significand_append,
        ih fun other hother => hdigits other (List.mem_append_left _ hother)]
      simp [digitChars, Nat.ofDigitChars_cons, toNat_digitChar digit hlast, significand,
        Nat.mul_comm]

section Spans

variable {digits : List Nat} {rest : List Char}

theorem isDigit_of_mem_digitChars (hdigits : ∀ digit ∈ digits, digit < 10) :
    ∀ character ∈ digitChars digits, character.isDigit = true := by
  intro character hcharacter
  obtain ⟨digit, hdigit, rfl⟩ := List.mem_map.mp hcharacter
  exact Layout.isDigit_digitChar digit (hdigits digit hdigit)

theorem takeWhile_digitChars (hdigits : ∀ digit ∈ digits, digit < 10)
    (hrest : ∀ character ∈ rest.head?, character.isDigit = false) :
    (digitChars digits ++ rest).takeWhile Char.isDigit = digitChars digits := by
  rw [List.takeWhile_append_of_pos (isDigit_of_mem_digitChars hdigits)]
  cases rest with
  | nil => simp
  | cons head tail => simp [hrest head rfl]

theorem dropWhile_digitChars (hdigits : ∀ digit ∈ digits, digit < 10)
    (hrest : ∀ character ∈ rest.head?, character.isDigit = false) :
    (digitChars digits ++ rest).dropWhile Char.isDigit = rest := by
  rw [List.dropWhile_append_of_pos (isDigit_of_mem_digitChars hdigits)]
  cases rest with
  | nil => simp
  | cons head tail => simp [hrest head rfl]

/-- Digits with what follows them, which is no point. -/
theorem valueOf_digitChars (hdigits : ∀ digit ∈ digits, digit < 10)
    (hrest : ∀ character ∈ rest.head?, character.isDigit = false ∧ character ≠ '.') :
    valueOf (digitChars digits ++ rest) = significand digits * (10 : ℚ) ^ exponentOf rest := by
  have hnodigit : ∀ character ∈ rest.head?, character.isDigit = false :=
    fun character hcharacter => (hrest character hcharacter).1
  have hfraction : fractionOf rest = ([], rest) := by
    cases rest with
    | nil => rfl
    | cons head tail =>
        unfold fractionOf
        split
        · next hpoint =>
            obtain ⟨rfl, -⟩ := List.cons.inj hpoint
            exact absurd rfl (hrest '.' rfl).2
        · rfl
  rw [valueOf, takeWhile_digitChars hdigits hnodigit, dropWhile_digitChars hdigits hnodigit,
    hfraction]
  simp [ofDigitChars_digitChars hdigits]

/-- Digits, a point and digits with what follows them. -/
theorem valueOf_point {fraction : List Nat} (hdigits : ∀ digit ∈ digits, digit < 10)
    (hfraction : ∀ digit ∈ fraction, digit < 10)
    (hrest : ∀ character ∈ rest.head?, character.isDigit = false) :
    valueOf (digitChars digits ++ '.' :: (digitChars fraction ++ rest)) =
      significand (digits ++ fraction) * (10 : ℚ) ^ (exponentOf rest - fraction.length) := by
  have hboth : ∀ digit ∈ digits ++ fraction, digit < 10 := by
    intro digit hdigit
    exact (List.mem_append.mp hdigit).elim (hdigits digit) (hfraction digit)
  have hpoint : ∀ character ∈ ('.' :: (digitChars fraction ++ rest)).head?,
      character.isDigit = false := by simp
  rw [valueOf, takeWhile_digitChars hdigits hpoint, dropWhile_digitChars hdigits hpoint,
    fractionOf, takeWhile_digitChars hfraction hrest, dropWhile_digitChars hfraction hrest]
  simp only [← digitChars_append, ofDigitChars_digitChars hboth, length_digitChars]

end Spans

theorem significand_zeros (count : Nat) : significand (List.replicate count 0) = 0 := by
  rw [significand, List.reverse_replicate, Nat.ofDigits_replicate_zero]

/-! ## Layouts -/

namespace Layout

variable (layout : Layout) {decimal : Decimal}

theorem toList_digitText (digits : List Nat) : (digitText digits).toList = digitChars digits :=
  digitText_toList digits

theorem ofDigitChars_repr (value : Nat) :
    Nat.ofDigitChars 10 (toString value).toList 0 = value := by
  rw [Nat.toString_eq_repr, Nat.toList_repr, Nat.ofDigitChars_ten_toDigits]

/-- An exponent is read back, with or without its plus sign. -/
theorem exponentOf_exponentText (exponent : Int) :
    exponentOf ('e' :: (layout.exponentText exponent).toList) = exponent := by
  cases exponent with
  | negSucc value =>
      have htext : (layout.exponentText (.negSucc value)).toList =
          '-' :: (toString (value + 1)).toList := by simp [exponentText]
      rw [htext, exponentOf, ofDigitChars_repr]
      rfl
  | ofNat value =>
      cases hplus : layout.plusSign with
      | true =>
          have htext : (layout.exponentText (.ofNat value)).toList =
              '+' :: (toString value).toList := by simp [exponentText, hplus]
          rw [htext, exponentOf, ofDigitChars_repr]
          rfl
      | false =>
          have htext : (layout.exponentText (.ofNat value)).toList = (toString value).toList := by
            simp [exponentText, hplus]
          have hdigits := (digits_repr value).2
          rw [htext]
          unfold exponentOf
          split
          · next hsame =>
              have hminus := hdigits '-' ((List.cons.inj hsame).2 ▸ List.mem_cons_self)
              exact absurd hminus (by decide)
          · next hsame =>
              have hsign := hdigits '+' ((List.cons.inj hsame).2 ▸ List.mem_cons_self)
              exact absurd hsign (by decide)
          · next hsame =>
              rw [← (List.cons.inj hsame).2, ofDigitChars_repr]
              rfl
          · next hother => exact absurd rfl (hother _)

/-- A whole number is written with its zeros and an empty fraction. -/
theorem valueOf_whole (hdigits : ∀ digit ∈ decimal.digits, digit < 10)
    (hexponent : 0 ≤ decimal.exponent) :
    valueOf (digitText decimal.digits ++ digitText (List.replicate decimal.exponent.toNat 0) ++
      ".0").toList = decimal.toRat := by
  obtain ⟨zeros, hzeros⟩ := Int.eq_ofNat_of_zero_le hexponent
  have hwhole : ∀ digit ∈ decimal.digits ++ List.replicate zeros 0, digit < 10 := by
    intro digit hdigit
    exact (List.mem_append.mp hdigit).elim (hdigits digit) WellFormed.mem_zeros_lt
  have htext : (digitText decimal.digits ++ digitText (List.replicate decimal.exponent.toNat 0) ++
      ".0").toList =
        digitChars (decimal.digits ++ List.replicate zeros 0) ++ '.' :: (digitChars [0] ++ []) := by
    simp [toList_digitText, digitChars, hzeros]
  calc valueOf _
      = significand ((decimal.digits ++ List.replicate zeros 0) ++ [0]) *
          (10 : ℚ) ^ (exponentOf [] - ([0] : List Nat).length) := by
        rw [htext, valueOf_point hwhole (by simp) (by simp)]
    _ = (significand decimal.digits * 10 ^ zeros * 10 : Nat) * (10 : ℚ) ^ (-1 : Int) := by
        rw [significand_append, significand_append, significand_zeros]
        simp [significand, exponentOf]
    _ = decimal.toRat := by
        rw [toRat, hzeros, zpow_natCast, zpow_neg_one]
        push_cast
        field_simp

/-- The point stands among the digits. -/
theorem valueOf_split (hdigits : ∀ digit ∈ decimal.digits, digit < 10) {point : Nat}
    (hpoint : (decimal.digits.length : Int) + decimal.exponent = point)
    (hbehind : point ≤ decimal.digits.length) :
    valueOf (digitText (decimal.digits.take point) ++ "." ++
      digitText (decimal.digits.drop point)).toList = decimal.toRat := by
  have htext : (digitText (decimal.digits.take point) ++ "." ++
      digitText (decimal.digits.drop point)).toList =
        digitChars (decimal.digits.take point) ++
          '.' :: (digitChars (decimal.digits.drop point) ++ []) := by
    simp [toList_digitText]
  have hexponent : exponentOf [] - ((decimal.digits.drop point).length : Int) =
      decimal.exponent := by
    rw [List.length_drop, exponentOf]
    · omega
    all_goals simp
  rw [htext, valueOf_point (fun digit hdigit => hdigits digit (List.mem_of_mem_take hdigit))
    (fun digit hdigit => hdigits digit (List.mem_of_mem_drop hdigit)) (by simp),
    List.take_append_drop, hexponent, toRat]

/-- The digits stand behind the point, after zeros. -/
theorem valueOf_behind (hdigits : ∀ digit ∈ decimal.digits, digit < 10) {zeros : Nat}
    (hzeros : -((decimal.digits.length : Int) + decimal.exponent) = zeros) :
    valueOf ("0." ++ digitText (List.replicate zeros 0) ++ digitText decimal.digits).toList =
      decimal.toRat := by
  have hfraction : ∀ digit ∈ List.replicate zeros 0 ++ decimal.digits, digit < 10 := by
    intro digit hdigit
    exact (List.mem_append.mp hdigit).elim WellFormed.mem_zeros_lt (hdigits digit)
  have htext : ("0." ++ digitText (List.replicate zeros 0) ++ digitText decimal.digits).toList =
      digitChars [0] ++ '.' :: (digitChars (List.replicate zeros 0 ++ decimal.digits) ++ []) := by
    simp [toList_digitText, digitChars]
  have hexponent : exponentOf [] - ((List.replicate zeros 0 ++ decimal.digits).length : Int) =
      decimal.exponent := by
    rw [List.length_append, List.length_replicate, exponentOf]
    · omega
    all_goals simp
  rw [htext, valueOf_point (by simp) hfraction (by simp), hexponent, significand_append,
    significand_append, significand_zeros, toRat]
  simp [significand]

/-- An exponent follows the first digit and the fraction, if there is one. -/
theorem valueOf_scientific (hdecimal : WellFormed decimal.digits) :
    valueOf (digitText (decimal.digits.take 1) ++
      (if decimal.digits.length ≤ 1 then "" else "." ++ digitText (decimal.digits.drop 1)) ++ "e" ++
        layout.exponentText (decimal.digits.length + decimal.exponent - 1)).toList =
      decimal.toRat := by
  obtain ⟨hne, hdigits⟩ := hdecimal
  have hlength : 0 < decimal.digits.length := List.length_pos_iff.mpr hne
  obtain ⟨exponent, hexponent⟩ : ∃ exponent, exponent =
      layout.exponentText (decimal.digits.length + decimal.exponent - 1) := ⟨_, rfl⟩
  have hread := exponentOf_exponentText layout (decimal.digits.length + decimal.exponent - 1)
  rw [← hexponent] at hread ⊢
  have hfirst : ∀ digit ∈ decimal.digits.take 1, digit < 10 :=
    fun digit hdigit => hdigits digit (List.mem_of_mem_take hdigit)
  by_cases hsingle : decimal.digits.length ≤ 1
  · have htext : (digitText (decimal.digits.take 1) ++ (if decimal.digits.length ≤ 1 then "" else
        "." ++ digitText (decimal.digits.drop 1)) ++ "e" ++ exponent).toList =
          digitChars (decimal.digits.take 1) ++ 'e' :: exponent.toList := by
      simp [toList_digitText, hsingle]
    rw [htext, valueOf_digitChars hfirst (by simp), hread, List.take_of_length_le hsingle, toRat]
    congr 2
    omega
  · have htext : (digitText (decimal.digits.take 1) ++ (if decimal.digits.length ≤ 1 then "" else
        "." ++ digitText (decimal.digits.drop 1)) ++ "e" ++ exponent).toList =
          digitChars (decimal.digits.take 1) ++
            '.' :: (digitChars (decimal.digits.drop 1) ++ 'e' :: exponent.toList) := by
      simp [toList_digitText, hsingle]
    rw [htext, valueOf_point hfirst
      (fun digit hdigit => hdigits digit (List.mem_of_mem_drop hdigit)) (by simp), hread,
      List.take_append_drop, List.length_drop, toRat]
    congr 2
    omega

/-- However a decimal is laid out, its text reads as its value. -/
theorem valueOf_magnitude (hdecimal : WellFormed decimal.digits) :
    valueOf (layout.magnitude decimal).toList = decimal.toRat := by
  rw [Layout.magnitude]
  dsimp only
  split
  · split
    · next hexponent => exact valueOf_whole hdecimal.2 hexponent
    · split
      · next hexponent hpoint =>
          apply valueOf_split hdecimal.2 (Int.toNat_of_nonneg hpoint.le).symm
          omega
      · next hpoint => exact valueOf_behind hdecimal.2 (Int.toNat_of_nonneg (by omega)).symm
  · exact valueOf_scientific layout hdecimal

/-- A magnitude is known from its text. -/
theorem magnitude_injective {left right : Nat} (hleft : 0 < left) (hright : 0 < right)
    (hleftFinite : left < Double.rankBound) (hrightFinite : right < Double.rankBound)
    (hsame : layout.magnitude (shortest left) = layout.magnitude (shortest right)) :
    left = right := by
  apply shortest_injective hleft hright hleftFinite hrightFinite
  rw [← valueOf_magnitude layout (shortest_wellFormed left), hsame,
    valueOf_magnitude layout (shortest_wellFormed right)]

/-- A point or the letter of an exponent is in the text. -/
theorem mark_mem_magnitude (decimal : Decimal) :
    '.' ∈ (layout.magnitude decimal).toList ∨ 'e' ∈ (layout.magnitude decimal).toList := by
  rw [Layout.magnitude]
  dsimp only
  split
  · left
    split
    · simp
    · split <;> simp
  · right
    simp

/-- The text of a magnitude begins with a digit. -/
theorem head?_magnitude (hdecimal : WellFormed decimal.digits) :
    ∃ digit < 10, (layout.magnitude decimal).toList.head? = some (Nat.digitChar digit) := by
  obtain ⟨hne, hdigits⟩ := hdecimal
  obtain ⟨first, others, hsplit⟩ := List.exists_cons_of_ne_nil hne
  have hfirst : first < 10 := hdigits first (hsplit ▸ List.mem_cons_self)
  rw [Layout.magnitude]
  dsimp only
  split
  · split
    · exact ⟨first, hfirst, by simp [toList_digitText, digitChars, hsplit]⟩
    · split
      · next hpoint =>
          obtain ⟨before, hbefore⟩ : ∃ before : Nat,
              ((decimal.digits.length : Int) + decimal.exponent).toNat = before + 1 :=
            ⟨((decimal.digits.length : Int) + decimal.exponent).toNat - 1, by omega⟩
          rw [hbefore, hsplit]
          exact ⟨first, hfirst, by simp [toList_digitText, digitChars]⟩
      · exact ⟨0, by decide, by simp⟩
  · exact ⟨first, hfirst, by simp [toList_digitText, digitChars, hsplit]⟩

/-! ## Texts of doubles -/

/-- The text of a double without its sign. -/
def unsignedText (rank : Nat) : String :=
  if rank = 0 then "0.0" else layout.magnitude (shortest rank)

theorem render_eq (value : Double) :
    layout.render value = (if value.negative then "-" else "") ++ layout.unsignedText value.rank :=
  rfl

theorem toRat_shortest_pos {rank : Nat} (hrank : 0 < rank) (hfinite : rank < Double.rankBound) :
    0 < (shortest rank).toRat := by
  have hlower := (contains_shortest hrank hfinite).1.1
  have hunits : 0 < (Interval.ofRank rank).lower := by
    have hless := Double.units_strictMono hrank
    rw [Interval.ofRank]
    dsimp only
    omega
  have hpositive : (0 : ℚ) < (shortest rank).toRat * halfUnitsPerOne :=
    lt_of_lt_of_le (by exact_mod_cast hunits) hlower
  exact pos_of_mul_pos_left hpositive (Nat.cast_nonneg _)

theorem valueOf_unsignedText {rank : Nat} (hfinite : rank < Double.rankBound) :
    valueOf (layout.unsignedText rank).toList = 0 ↔ rank = 0 := by
  unfold unsignedText
  split
  · next hzero =>
      have htext : "0.0".toList = digitChars [0] ++ '.' :: (digitChars [0] ++ []) := rfl
      rw [htext, valueOf_point (by simp) (by simp) (by simp)]
      have hnothing : significand ([0] ++ [0]) = 0 := rfl
      rw [hnothing]
      exact iff_of_true (by simp) hzero
  · next hrank =>
      have hpositive := toRat_shortest_pos (Nat.pos_of_ne_zero hrank) hfinite
      rw [valueOf_magnitude layout (shortest_wellFormed rank)]
      exact iff_of_false hpositive.ne' hrank

theorem unsignedText_injective {left right : Nat} (hleft : left < Double.rankBound)
    (hright : right < Double.rankBound)
    (hsame : layout.unsignedText left = layout.unsignedText right) : left = right := by
  have hzero : left = 0 ↔ right = 0 := by
    rw [← valueOf_unsignedText layout hleft, ← valueOf_unsignedText layout hright, hsame]
  by_cases hleftZero : left = 0
  · rw [hleftZero, hzero.mp hleftZero]
  · have hrightZero : right ≠ 0 := fun hright => hleftZero (hzero.mpr hright)
    rw [unsignedText, unsignedText, if_neg hleftZero, if_neg hrightZero] at hsame
    exact magnitude_injective layout (Nat.pos_of_ne_zero hleftZero)
      (Nat.pos_of_ne_zero hrightZero) hleft hright hsame

theorem head?_unsignedText (rank : Nat) :
    ∃ digit < 10, (layout.unsignedText rank).toList.head? = some (Nat.digitChar digit) := by
  unfold unsignedText
  split
  · exact ⟨0, by decide, rfl⟩
  · exact head?_magnitude layout (shortest_wellFormed rank)

theorem digitChar_ne_minus : ∀ digit < 10, Nat.digitChar digit ≠ '-' := by
  decide

/-- Different doubles have different texts. -/
theorem render_injective : Function.Injective layout.render := by
  intro left right hsame
  rw [render_eq, render_eq] at hsame
  have hsign : left.negative = right.negative := by
    obtain ⟨digit, hdigit, hhead⟩ := head?_unsignedText layout left.rank
    obtain ⟨other, hother, hotherHead⟩ := head?_unsignedText layout right.rank
    have hheads := congrArg (fun text : String => text.toList.head?) hsame
    cases hleft : left.negative <;> cases hright : right.negative
    · rfl
    · simp [hleft, hright, hhead, digitChar_ne_minus digit hdigit] at hheads
    · simp [hleft, hright, hotherHead, (digitChar_ne_minus other hother).symm] at hheads
    · rfl
  rw [hsign] at hsame
  have hrank : left.rank = right.rank :=
    unsignedText_injective layout left.isFinite right.isFinite
      (String.append_right_inj _ |>.mp hsame)
  cases left
  cases right
  obtain rfl : _ = _ := hsign
  obtain rfl : _ = _ := hrank
  rfl

/-- The text of an integer has digits, and perhaps a sign. -/
theorem isDigit_of_mem_toString (number : Int) :
    ∀ character ∈ (toString number).toList, character = '-' ∨ character.isDigit = true := by
  cases number with
  | ofNat natural => exact fun character hmem => .inr ((digits_repr natural).2 character hmem)
  | negSucc natural =>
      have htext : (toString (Int.negSucc natural)).toList =
          '-' :: (toString (natural + 1)).toList := by
        rw [show toString (Int.negSucc natural) = "-" ++ toString (natural + 1) from rfl]
        simp
      intro character hmem
      rw [htext, List.mem_cons] at hmem
      exact hmem.imp_right ((digits_repr (natural + 1)).2 character)

/-- No integer is written as a double is. -/
theorem render_ne_toString (value : Double) (number : Int) :
    layout.render value ≠ toString number := by
  intro hsame
  have hmark : '.' ∈ (layout.render value).toList ∨ 'e' ∈ (layout.render value).toList := by
    have hbody : '.' ∈ (layout.unsignedText value.rank).toList ∨
        'e' ∈ (layout.unsignedText value.rank).toList := by
      unfold unsignedText
      split
      · exact .inl (by decide)
      · exact mark_mem_magnitude layout _
    rw [render_eq, String.toList_append, List.mem_append, List.mem_append]
    exact hbody.imp .inr .inr
  rw [hsame] at hmark
  rcases hmark with hmark | hmark
  · exact absurd (isDigit_of_mem_toString number _ hmark) (by decide)
  · exact absurd (isDigit_of_mem_toString number _ hmark) (by decide)

end Layout

end TreeQuery.Decimal
