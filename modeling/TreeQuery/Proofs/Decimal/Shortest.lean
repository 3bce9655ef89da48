import Mathlib.Algebra.Order.Field.Power
import Mathlib.Data.Nat.Digits.Defs
import Mathlib.Data.Rat.Defs
import Mathlib.Order.Monotone.Basic
import Mathlib.Tactic.FieldSimp
import Mathlib.Tactic.NormNum
import Mathlib.Tactic.Positivity
import Mathlib.Tactic.Qify
import Mathlib.Tactic.Ring
import TreeQuery.Decimal.Shortest

/-!
# The shortest decimal identifies its magnitude

The intervals of reals that round to different ranks have no point in common, and the
decimal that is chosen for a rank is a point of its interval: the grids that are tried
reach one that is finer than the interval is wide.
-/

namespace TreeQuery

namespace Double

theorem pow_two_eq (exponent : Nat) : Nat.pow 2 exponent = 2 ^ exponent := rfl

theorem unitsPerOne_pos : 0 < unitsPerOne := by
  unfold unitsPerOne
  generalize 1074 = exponent
  exact Nat.two_pow_pos exponent

/-- The distance from a magnitude to the next. -/
theorem units_succ (rank : Nat) :
    units (rank + 1) = units rank + 2 ^ (rank / 2 ^ 52 - 1) := by
  simp only [units, pow_two_eq]
  by_cases hsmall : rank + 1 < 2 ^ 53
  · have hshift : rank / 2 ^ 52 - 1 = 0 := by omega
    rw [if_pos hsmall, if_pos (by omega), hshift, pow_zero]
  · rw [if_neg hsmall]
    by_cases hlast : rank < 2 ^ 53
    · have hrank : rank = 2 ^ 53 - 1 := by omega
      rw [if_pos hlast, hrank]
      norm_num
    · rw [if_neg hlast]
      by_cases hwrap : rank % 2 ^ 52 + 1 = 2 ^ 52
      · have hdiv : (rank + 1) / 2 ^ 52 = rank / 2 ^ 52 + 1 := by omega
        have hmod : (rank + 1) % 2 ^ 52 = 0 := by omega
        obtain ⟨shift, hshift⟩ : ∃ shift, rank / 2 ^ 52 = shift + 1 :=
          ⟨rank / 2 ^ 52 - 1, by omega⟩
        have hrest : rank % 2 ^ 52 = 2 ^ 52 - 1 := by omega
        rw [hdiv, hmod, hshift, hrest, Nat.add_sub_cancel, Nat.add_sub_cancel, pow_succ]
        ring_nf
      · have hdiv : (rank + 1) / 2 ^ 52 = rank / 2 ^ 52 := by omega
        have hmod : (rank + 1) % 2 ^ 52 = rank % 2 ^ 52 + 1 := by omega
        rw [hdiv, hmod]
        ring

theorem units_strictMono : StrictMono units := by
  apply strictMono_nat_of_lt_succ
  intro rank
  rw [units_succ]
  exact Nat.lt_add_of_pos_right (Nat.two_pow_pos _)

theorem units_lt (rank : Nat) : units rank < 2 ^ (53 + (rank / 2 ^ 52 - 1)) := by
  simp only [units, pow_two_eq]
  by_cases hsmall : rank < 2 ^ 53
  · rw [if_pos hsmall]
    exact hsmall.trans_le (Nat.pow_le_pow_right two_pos (Nat.le_add_right _ _))
  · rw [if_neg hsmall, pow_add]
    apply Nat.mul_lt_mul_of_pos_right _ (Nat.two_pow_pos _)
    omega

end Double

namespace Decimal

open Double (units unitsPerOne)

/-! ## The value of a decimal -/

/-- The value of digits, most significant first. -/
def significand (digits : List Nat) : Nat :=
  Nat.ofDigits 10 digits.reverse

/-- The number that a decimal stands for. -/
def toRat (decimal : Decimal) : ℚ :=
  significand decimal.digits * (10 : ℚ) ^ decimal.exponent

theorem significand_append (digits others : List Nat) :
    significand (digits ++ others) =
      significand digits * 10 ^ others.length + significand others := by
  rw [significand, List.reverse_append, Nat.ofDigits_append, List.length_reverse]
  rw [significand, significand, Nat.mul_comm, Nat.add_comm]

theorem significand_digitsOf (value : Nat) : significand (digitsOf value) = value := by
  induction value using digitsOf.induct with
  | case1 value hvalue =>
      rw [digitsOf, if_pos hvalue]
      simp [significand]
  | case2 value hvalue ih =>
      rw [digitsOf, if_neg hvalue, significand_append, ih]
      simp only [significand, List.reverse_cons, List.reverse_nil, List.nil_append,
        Nat.ofDigits_singleton, List.length_singleton, pow_one]
      omega

theorem stripZeros_eq (value : Nat) :
    (stripZeros value).1 * 10 ^ (stripZeros value).2 = value := by
  induction value using stripZeros.induct with
  | case1 => simp [stripZeros]
  | case2 value hvalue hmod stripped count hstrip ih =>
      rw [stripZeros, if_neg hvalue, if_pos hmod]
      simp only [hstrip] at ih ⊢
      rw [pow_succ, ← Nat.mul_assoc, ih]
      omega
  | case3 value hvalue hmod =>
      rw [stripZeros, if_neg hvalue, if_neg hmod]
      simp

theorem toRat_ofNat (value : Nat) (exponent : Int) :
    (ofNat value exponent).toRat = value * (10 : ℚ) ^ exponent := by
  have hstrip := stripZeros_eq value
  calc (ofNat value exponent).toRat
      = ((stripZeros value).1 : ℚ) * 10 ^ (exponent + (stripZeros value).2) := by
        rw [toRat, ofNat, significand_digitsOf]
    _ = ((stripZeros value).1 * 10 ^ (stripZeros value).2 : ℚ) * 10 ^ exponent := by
        rw [zpow_add₀ (by norm_num), zpow_natCast]
        ring
    _ = value * (10 : ℚ) ^ exponent := by
        conv_rhs => rw [← hstrip]
        push_cast
        rfl

/-! ## Intervals -/

/-- The half units in one. -/
def halfUnitsPerOne : Nat := 2 * unitsPerOne

theorem halfUnitsPerOne_pos : 0 < halfUnitsPerOne :=
  Nat.mul_pos two_pos Double.unitsPerOne_pos

namespace Interval

/-- Whether a number of half units lies in the interval. -/
def Contains (interval : Interval) (point : ℚ) : Prop :=
  (interval.lower ≤ point ∧ point ≤ interval.upper) ∧
    (interval.closed = false → interval.lower ≠ point ∧ point ≠ interval.upper)

theorem contains_of_holds {interval : Interval} {point scale : Nat} (hscale : 0 < scale)
    (hholds : interval.holds point scale = true) : interval.Contains ((point : ℚ) / scale) := by
  have hpos : (0 : ℚ) < scale := by exact_mod_cast hscale
  rw [Contains, le_div_iff₀ hpos, div_le_iff₀ hpos, ne_eq, ne_eq, eq_div_iff hpos.ne',
    div_eq_iff hpos.ne']
  norm_cast
  unfold holds at hholds
  cases hclosed : interval.closed with
  | true => simpa [hclosed] using hholds
  | false =>
      simp [hclosed] at hholds
      omega

/-- Intervals of different ranks have no point in common. -/
theorem eq_of_contains {left right : Nat} {point : ℚ} (hleft : (ofRank left).Contains point)
    (hright : (ofRank right).Contains point) : left = right := by
  have hapart : ∀ low high : Nat, low < high → (ofRank low).Contains point →
      ¬ (ofRank high).Contains point := by
    intro low high hlt hlow hhigh
    have hupper : ((ofRank low).upper : ℚ) ≤ (ofRank high).lower := by
      have hfirst := Double.units_strictMono.monotone (show low ≤ high - 1 by omega)
      have hsecond := Double.units_strictMono.monotone (show low + 1 ≤ high by omega)
      exact_mod_cast Nat.add_le_add hfirst hsecond
    have hsame : ((ofRank low).upper : ℚ) = (ofRank high).lower :=
      le_antisymm hupper (hhigh.1.1.trans hlow.1.2)
    have hpoint : point = (ofRank low).upper := le_antisymm hlow.1.2 (hsame.le.trans hhigh.1.1)
    have hlowClosed : (ofRank low).closed = true := by
      by_contra hopen
      exact (hlow.2 (by simpa using hopen)).2 hpoint
    have hhighClosed : (ofRank high).closed = true := by
      by_contra hopen
      exact (hhigh.2 (by simpa using hopen)).1 (hsame ▸ hpoint.symm)
    have hnext : high ≠ low + 1 := by
      rintro rfl
      simp [ofRank] at hlowClosed hhighClosed
      omega
    have hstrict : (ofRank low).upper < (ofRank high).lower := by
      have hfirst := Double.units_strictMono (show low < high - 1 by omega)
      have hsecond := Double.units_strictMono.monotone (show low + 1 ≤ high by omega)
      exact Nat.add_lt_add_of_lt_of_le hfirst hsecond
    exact hstrict.ne (by exact_mod_cast hsame)
  rcases Nat.lt_trichotomy left right with hlt | heq | hgt
  · exact absurd hright (hapart left right hlt hleft)
  · exact heq
  · exact absurd hleft (hapart right left hgt hright)

end Interval

/-! ## Grids -/

/-- A power of ten is a quotient of two natural powers, one of which is one. -/
theorem ten_zpow_eq (exponent : Int) :
    (10 : ℚ) ^ exponent = (10 ^ exponent.toNat : Nat) / (10 ^ (-exponent).toNat : Nat) := by
  rcases Int.le_total 0 exponent with hexponent | hexponent
  · obtain ⟨count, rfl⟩ := Int.eq_ofNat_of_zero_le hexponent
    simp
  · obtain ⟨count, hcount⟩ := Int.eq_ofNat_of_zero_le (Int.neg_nonneg_of_nonpos hexponent)
    obtain rfl : exponent = -(count : Int) := by omega
    simp

/-- The point found on a grid lies in the interval. -/
theorem contains_of_gridPoint? {interval : Interval} {exponent : Int} {point : Nat}
    (hpoint : gridPoint? interval exponent = some point) :
    interval.Contains ((ofNat point exponent).toRat * halfUnitsPerOne) := by
  have hscale : 0 < Nat.pow 10 (-exponent).toNat := Nat.pow_pos (by decide)
  have hvalue : (ofNat point exponent).toRat * halfUnitsPerOne =
      ((point * (2 * unitsPerOne * Nat.pow 10 exponent.toNat) : Nat) : ℚ) /
        (Nat.pow 10 (-exponent).toNat : Nat) := by
    rw [toRat_ofNat, ten_zpow_eq, halfUnitsPerOne]
    simp only [Nat.pow_eq]
    push_cast
    ring
  rw [hvalue]
  unfold gridPoint? at hpoint
  extract_lets step scale target below above toBelow toAbove nearer farther at hpoint
  split at hpoint
  · next hholds =>
      obtain rfl := Option.some.inj hpoint
      exact Interval.contains_of_holds hscale hholds
  · split at hpoint
    · next hholds =>
        obtain rfl := Option.some.inj hpoint
        exact Interval.contains_of_holds hscale hholds
    · cases hpoint

/-- The point below the value is tried, as the nearer or as the farther one. -/
theorem gridPoint?_isSome_of_holds {interval : Interval} {exponent : Int} {step scale : Nat}
    (hstep : step = halfUnitsPerOne * 10 ^ exponent.toNat)
    (hscale : scale = 10 ^ (-exponent).toNat)
    (hholds : interval.holds (interval.value * scale / step * step) scale = true) :
    (gridPoint? interval exponent).isSome = true := by
  rw [hstep, hscale, halfUnitsPerOne, ← Nat.pow_eq, ← Nat.pow_eq] at hholds
  unfold gridPoint?
  extract_lets step scale target below above toBelow toAbove nearer farther
  have hcovered : nearer = below ∨ farther = below := by
    by_cases hnearer : nearer = below
    · exact .inl hnearer
    · exact .inr (if_neg hnearer)
  split
  · rfl
  · next hfirst =>
      have hfarther : farther = below := hcovered.resolve_left fun hnearer =>
        hfirst (hnearer ▸ hholds)
      rw [if_pos (hfarther ▸ hholds)]
      rfl

/-- A grid has a point in every interval that reaches one step to either side. -/
theorem gridPoint?_isSome {interval : Interval} {exponent : Int} {gap : Nat}
    (hlower : interval.lower + gap ≤ interval.value) (hupper : interval.value < interval.upper)
    (hfine : halfUnitsPerOne * 10 ^ exponent.toNat ≤ gap * 10 ^ (-exponent).toNat) :
    (gridPoint? interval exponent).isSome = true := by
  obtain ⟨scale, hscale⟩ : ∃ scale, scale = 10 ^ (-exponent).toNat := ⟨_, rfl⟩
  obtain ⟨step, hstep⟩ : ∃ step, step = halfUnitsPerOne * 10 ^ exponent.toNat := ⟨_, rfl⟩
  rw [← hscale, ← hstep] at hfine
  apply gridPoint?_isSome_of_holds hstep hscale
  have hpositive : 0 < step := by
    rw [hstep]
    exact Nat.mul_pos halfUnitsPerOne_pos (Nat.pow_pos (by decide))
  have hsplit := Nat.div_add_mod (interval.value * scale) step
  have hless : interval.value * scale % step < step := Nat.mod_lt _ hpositive
  have hlow : interval.lower * scale + step ≤ interval.value * scale :=
    calc interval.lower * scale + step
        ≤ interval.lower * scale + gap * scale := Nat.add_le_add_left hfine _
      _ = (interval.lower + gap) * scale := (Nat.add_mul _ _ _).symm
      _ ≤ interval.value * scale := Nat.mul_le_mul_right _ hlower
  have hhigh : interval.value * scale < interval.upper * scale :=
    Nat.mul_lt_mul_of_pos_right hupper (hscale ▸ Nat.pow_pos (by decide))
  rw [Nat.mul_comm step] at hsplit
  have hleft : interval.lower * scale < interval.value * scale / step * step := by omega
  have hright : interval.value * scale / step * step < interval.upper * scale := by omega
  unfold Interval.holds
  split <;> simp [hleft, hright, hleft.le, hright.le]

/-- If one of the grids has a point in the interval, the decimal found is in it. -/
theorem contains_firstGrid {interval : Interval} {count index : Nat} {exponent : Int}
    (hindex : index < count)
    (hsome : (gridPoint? interval (exponent - index)).isSome = true) :
    interval.Contains ((firstGrid interval count exponent).toRat * halfUnitsPerOne) := by
  induction count generalizing exponent index with
  | zero => exact absurd hindex (Nat.not_lt_zero _)
  | succ count ih =>
      rw [firstGrid]
      split
      · next point hpoint => exact contains_of_gridPoint? hpoint
      · next hnone =>
          cases index with
          | zero => simp [hnone] at hsome
          | succ index =>
              apply ih (Nat.lt_of_succ_lt_succ hindex)
              rwa [show exponent - 1 - index = exponent - (index + 1 : Nat) by omega]

theorem fine_iff (halfUnits gap : Nat) (exponent : Int) :
    halfUnits * 10 ^ exponent.toNat ≤ gap * 10 ^ (-exponent).toNat ↔
      (halfUnits : ℚ) * 10 ^ exponent ≤ gap := by
  rw [ten_zpow_eq, mul_div, div_le_iff₀ (by positivity)]
  norm_cast

/-- The exponent of the finest grid that is tried for magnitudes of a binary length. -/
def finestExponent (length : Nat) : Int :=
  ((length : Int) - 1075) * 30103 / 100000 + 1 - 19

theorem finestExponent_mono {length greater : Nat} (hle : length ≤ greater) :
    finestExponent length ≤ finestExponent greater := by
  unfold finestExponent
  omega

/-- The finest grid is as fine as the distance of neighbours in the binade below. -/
theorem finest_grid : ∀ binade < 2047,
    halfUnitsPerOne * 10 ^ (finestExponent (53 + (binade - 1))).toNat ≤
      2 ^ (binade - 2) * 10 ^ (-finestExponent (53 + (binade - 1))).toNat := by
  decide +kernel

/-- The decimal chosen for a nonzero magnitude lies in its interval. -/
theorem contains_shortest {rank : Nat} (hrank : 0 < rank) (hfinite : rank < Double.rankBound) :
    (Interval.ofRank rank).Contains ((shortest rank).toRat * halfUnitsPerOne) := by
  obtain ⟨before, rfl⟩ : ∃ before, rank = before + 1 := ⟨rank - 1, by omega⟩
  obtain ⟨binade, hbinade⟩ : ∃ binade, binade = (before + 1) / 2 ^ 52 := ⟨_, rfl⟩
  have hbound : binade < 2047 := by
    rw [Double.rankBound, Nat.pow_eq] at hfinite
    omega
  have hdistance : Double.units (before + 1) = Double.units before + 2 ^ (before / 2 ^ 52 - 1) :=
    Double.units_succ before
  have hgap : 2 ^ (binade - 2) ≤ 2 ^ (before / 2 ^ 52 - 1) := by
    apply Nat.pow_le_pow_right two_pos
    omega
  have hlog : Nat.log2 (2 * Double.units (before + 1)) ≤ 53 + (binade - 1) := by
    have hless := Double.units_lt (before + 1)
    rw [← hbinade] at hless
    have hpositive : 0 < Double.units (before + 1) := by
      rw [hdistance]
      exact Nat.add_pos_right _ (Nat.two_pow_pos _)
    apply Nat.le_of_lt_succ
    rw [Nat.log2_lt (by omega), pow_succ']
    omega
  have hfine := (fine_iff _ _ _).mp (finest_grid binade hbound)
  have hexponent : leadingExponent (2 * Double.units (before + 1)) - (19 : Nat) ≤
      finestExponent (53 + (binade - 1)) :=
    finestExponent_mono hlog
  have hnext := Double.units_strictMono (Nat.lt_add_one (before + 1))
  rw [shortest]
  apply contains_firstGrid (show 19 < 20 by decide)
  apply @gridPoint?_isSome _ _ (2 ^ (before / 2 ^ 52 - 1))
  · simp only [Interval.ofRank, Nat.add_sub_cancel]
    omega
  · simp only [Interval.ofRank]
    omega
  · rw [fine_iff]
    calc (halfUnitsPerOne : ℚ) * 10 ^ (leadingExponent (2 * Double.units (before + 1)) - (19 : Nat))
        ≤ halfUnitsPerOne * 10 ^ finestExponent (53 + (binade - 1)) := by
          apply mul_le_mul_of_nonneg_left _ (Nat.cast_nonneg _)
          exact zpow_le_zpow_right₀ (by norm_num) hexponent
      _ ≤ (2 ^ (binade - 2) : Nat) := hfine
      _ ≤ (2 ^ (before / 2 ^ 52 - 1) : Nat) := by exact_mod_cast hgap

/-- A nonzero magnitude is known from its decimal. -/
theorem shortest_injective {left right : Nat} (hleft : 0 < left) (hright : 0 < right)
    (hleftFinite : left < Double.rankBound) (hrightFinite : right < Double.rankBound)
    (hsame : (shortest left).toRat = (shortest right).toRat) : left = right := by
  have hcontains := contains_shortest hleft hleftFinite
  rw [hsame] at hcontains
  exact Interval.eq_of_contains hcontains (contains_shortest hright hrightFinite)

end Decimal

end TreeQuery
