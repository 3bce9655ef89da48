import Mathlib.Data.Nat.Dist
import Mathlib.Tactic.Linarith
import TreeQuery.Proofs.Decimal.Shortest

/-!
# The nearest double

The double that is made of an integer is one of those nearest to it.  Magnitudes are
compared in units of `2 ^ -1074`, where all of them are natural numbers.  From the power of
two below the integer on, the magnitudes are points of a grid, and the point that is chosen
is the nearest of these; every other magnitude lies below that power of two.
-/

namespace TreeQuery.Double

/-- The value of a double, counted in units of `2 ^ -1074`. -/
def inUnits (double : Double) : Int :=
  if double.negative then -units double.rank else units double.rank

/-- No double is nearer to an integer than this one. -/
def IsNearest (double : Double) (value : Int) : Prop :=
  ∀ other : Double,
    |value * unitsPerOne - double.inUnits| ≤ |value * unitsPerOne - other.inUnits|

/-! ## Points of a grid -/

/-- Rounding a quotient gives the nearest point of the grid of multiples. -/
theorem dist_roundHalfEven_le (numerator multiple : Nat) {denominator : Nat}
    (hpos : 0 < denominator) :
    Nat.dist numerator (roundHalfEven numerator denominator * denominator) ≤
      Nat.dist numerator (multiple * denominator) := by
  have hcut : numerator = numerator / denominator * denominator + numerator % denominator := by
    rw [Nat.mul_comm]
    exact (Nat.div_add_mod numerator denominator).symm
  have hrest : numerator % denominator < denominator := Nat.mod_lt numerator hpos
  -- a multiple is at most the quotient's or at least the next one
  have hgap : multiple * denominator ≤ numerator / denominator * denominator ∨
      (numerator / denominator + 1) * denominator ≤ multiple * denominator :=
    (Nat.lt_or_ge (numerator / denominator) multiple).symm.imp
      (Nat.mul_le_mul_right denominator) (Nat.mul_le_mul_right denominator)
  have hchosen : roundHalfEven numerator denominator = numerator / denominator ∧
        2 * (numerator % denominator) ≤ denominator ∨
      roundHalfEven numerator denominator = numerator / denominator + 1 ∧
        denominator ≤ 2 * (numerator % denominator) := by
    unfold roundHalfEven
    dsimp only
    split_ifs <;> omega
  rw [Nat.add_one_mul] at hgap
  rcases hchosen with ⟨hround, hhalf⟩ | ⟨hround, hhalf⟩
  · rw [hround]
    simp only [Nat.dist]
    omega
  · rw [hround, Nat.add_one_mul]
    simp only [Nat.dist]
    omega

/-- Magnitudes from a power of two on are points of the grid that belongs to it. -/
theorem dvd_units {shift rank : Nat} (hlarge : 2 ^ (52 + shift) ≤ units rank) :
    2 ^ shift ∣ units rank := by
  have hshift : 52 + shift < 53 + (rank / 2 ^ 52 - 1) :=
    (Nat.pow_lt_pow_iff_right Nat.one_lt_two).mp (hlarge.trans_lt (units_lt rank))
  simp only [units, pow_two_eq]
  by_cases hsmall : rank < 2 ^ 53
  · have hzero : shift = 0 := by omega
    rw [hzero, pow_zero]
    exact Nat.one_dvd _
  · rw [if_neg hsmall]
    exact Dvd.dvd.mul_left (Nat.pow_dvd_pow 2 (by omega)) _

/-- The magnitude of the rank that stands for a point of a grid. -/
theorem units_grid {shift point : Nat} (hshift : 0 < shift) (hlower : 2 ^ 52 ≤ point)
    (hupper : point ≤ 2 ^ 53) : units (shift * 2 ^ 52 + point) = point * 2 ^ shift := by
  simp only [units, pow_two_eq]
  rw [if_neg (by omega)]
  rcases hupper.lt_or_eq with hbelow | rfl
  · have hdiv : (shift * 2 ^ 52 + point) / 2 ^ 52 - 1 = shift := by omega
    have hmod : 2 ^ 52 + (shift * 2 ^ 52 + point) % 2 ^ 52 = point := by omega
    rw [hdiv, hmod]
  · have hdiv : (shift * 2 ^ 52 + 2 ^ 53) / 2 ^ 52 - 1 = shift + 1 := by omega
    have hmod : (shift * 2 ^ 52 + 2 ^ 53) % 2 ^ 52 = 0 := by omega
    rw [hdiv, hmod, pow_succ]
    ring

/-- A quotient is rounded to one of the two integers around it. -/
theorem roundHalfEven_bounds (numerator denominator : Nat) :
    numerator / denominator ≤ roundHalfEven numerator denominator ∧
      roundHalfEven numerator denominator ≤ numerator / denominator + 1 := by
  unfold roundHalfEven
  dsimp only
  split_ifs <;> omega

/-! ## The nearest magnitude -/

section Magnitude

variable {whole : Nat}

theorem nearestRank_of_lt (hsmall : whole < 2 ^ 53) : nearestRank whole 1 = whole := by
  simp only [nearestRank, pow_two_eq, Nat.div_one]
  rw [if_pos hsmall]
  simp [roundHalfEven, Nat.mod_one]

/-- A large number is rounded to a point of the grid of its power of two. -/
theorem exists_grid (hlarge : 2 ^ 53 ≤ whole) :
    ∃ shift, 0 < shift ∧ 2 ^ (52 + shift) ≤ whole ∧ whole < 2 ^ (53 + shift) ∧
      2 ^ 52 ≤ roundHalfEven whole (2 ^ shift) ∧ roundHalfEven whole (2 ^ shift) ≤ 2 ^ 53 ∧
      nearestRank whole 1 = shift * 2 ^ 52 + roundHalfEven whole (2 ^ shift) := by
  have hne : whole ≠ 0 := by omega
  have hlog : 53 ≤ whole.log2 := (Nat.le_log2 hne).mpr hlarge
  obtain ⟨shift, hshift⟩ : ∃ shift, whole.log2 = 52 + shift := Nat.exists_eq_add_of_le (by omega)
  have hlower : 2 ^ (52 + shift) ≤ whole := hshift ▸ Nat.log2_self_le hne
  have hupper : whole < 2 ^ (53 + shift) := by
    rw [show 53 + shift = whole.log2 + 1 by omega]
    exact Nat.lt_log2_self
  obtain ⟨hleast, hmost⟩ := roundHalfEven_bounds whole (2 ^ shift)
  refine ⟨shift, by omega, hlower, hupper, ?_, ?_, ?_⟩
  · rw [pow_add] at hlower
    exact ((Nat.le_div_iff_mul_le (Nat.two_pow_pos shift)).mpr hlower).trans hleast
  · rw [pow_add] at hupper
    exact hmost.trans ((Nat.div_lt_iff_lt_mul (Nat.two_pow_pos shift)).mpr hupper)
  · simp only [nearestRank, pow_two_eq, Nat.div_one, Nat.one_mul]
    rw [if_neg (by omega), show whole.log2 - 52 = shift by omega]

/-- No magnitude is nearer to a number than that of its nearest rank. -/
theorem dist_units_nearestRank_le (whole rank : Nat) :
    Nat.dist whole (units (nearestRank whole 1)) ≤ Nat.dist whole (units rank) := by
  by_cases hsmall : whole < 2 ^ 53
  · have hexact : units whole = whole := by rw [units, pow_two_eq, if_pos hsmall]
    rw [nearestRank_of_lt hsmall, hexact, Nat.dist_self]
    exact Nat.zero_le _
  · obtain ⟨shift, hshift, hlower, -, hleast, hmost, hrank⟩ := exists_grid (Nat.not_lt.mp hsmall)
    have hpos : 0 < 2 ^ shift := Nat.two_pow_pos shift
    rw [hrank, units_grid hshift hleast hmost]
    by_cases hgrid : 2 ^ (52 + shift) ≤ units rank
    · obtain ⟨multiple, hmultiple⟩ := dvd_units hgrid
      rw [hmultiple, Nat.mul_comm (2 ^ shift)]
      exact dist_roundHalfEven_le whole multiple hpos
    · -- off the grid, a magnitude is farther away than the first point of the grid
      have hfirst := dist_roundHalfEven_le whole (2 ^ 52) hpos
      rw [← pow_add] at hfirst
      apply hfirst.trans
      simp only [Nat.dist]
      omega

theorem nearestRank_le {extra : Nat} (hbound : whole < 2 ^ (53 + extra)) :
    nearestRank whole 1 ≤ (extra + 2) * 2 ^ 52 := by
  by_cases hsmall : whole < 2 ^ 53
  · rw [nearestRank_of_lt hsmall]
    omega
  · obtain ⟨shift, -, hlower, -, -, hmost, hrank⟩ := exists_grid (Nat.not_lt.mp hsmall)
    have hshift : 52 + shift < 53 + extra :=
      (Nat.pow_lt_pow_iff_right Nat.one_lt_two).mp (hlower.trans_lt hbound)
    rw [hrank]
    omega

end Magnitude

/-! ## The double of an integer -/

theorem abs_sub_eq_dist (left right : Nat) : |(left : Int) - right| = Nat.dist left right := by
  rcases Nat.le_total left right with hle | hle
  · rw [abs_of_nonpos (by omega), Nat.dist_eq_sub_of_le hle]
    omega
  · rw [abs_of_nonneg (by omega), Nat.dist_eq_sub_of_le_right hle]
    omega

/-- Of one sign, an integer and a double are as far apart as their magnitudes. -/
theorem abs_sub_signed (value : Int) (magnitude : Nat) :
    |value * unitsPerOne - (if value < 0 then -(magnitude : Int) else magnitude)| =
      Nat.dist (value.natAbs * unitsPerOne) magnitude := by
  rw [← abs_sub_eq_dist, Nat.cast_mul]
  split_ifs with hsign
  · rw [Int.ofNat_natAbs_of_nonpos hsign.le, abs_sub_comm]
    congr 1
    ring
  · rw [Int.natAbs_of_nonneg (Int.not_lt.mp hsign)]

/-- An integer is as far from any double as its magnitude is from some magnitude, at least:
that of the double, or zero where the signs differ. -/
theorem exists_dist_le (value : Int) (double : Double) :
    ∃ rank, (Nat.dist (value.natAbs * unitsPerOne) (units rank) : Int) ≤
      |value * unitsPerOne - double.inUnits| := by
  by_cases hsign : double.negative = decide (value < 0)
  · refine ⟨double.rank, le_of_eq ?_⟩
    rw [inUnits, hsign, ← abs_sub_signed]
    simp only [decide_eq_true_eq]
  · refine ⟨0, ?_⟩
    have hzero : Nat.dist (value.natAbs * unitsPerOne) (units 0) = value.natAbs * unitsPerOne :=
      Nat.dist_zero_right _
    have hmagnitude : (0 : Int) ≤ units double.rank := Int.natCast_nonneg _
    have hunits : (0 : Int) ≤ unitsPerOne := Int.natCast_nonneg _
    rw [hzero, Nat.cast_mul, inUnits]
    rcases lt_or_ge value 0 with hnegative | hnonnegative
    · have hother : double.negative = false := by simpa [hnegative] using hsign
      have hproduct : value * unitsPerOne ≤ 0 := mul_nonpos_of_nonpos_of_nonneg hnegative.le hunits
      rw [hother, if_neg Bool.false_ne_true, Int.ofNat_natAbs_of_nonpos hnegative.le,
        abs_of_nonpos (by linarith)]
      linarith
    · have hother : double.negative = true := by simpa [hnonnegative.not_gt] using hsign
      have hproduct : 0 ≤ value * unitsPerOne := mul_nonneg hnonnegative hunits
      rw [hother, if_pos rfl, Int.natAbs_of_nonneg hnonnegative, abs_of_nonneg (by linarith)]
      linarith

theorem exists_unitsPerOne_eq : ∃ exponent, exponent = 1074 ∧ unitsPerOne = 2 ^ exponent := by
  refine ⟨_, rfl, ?_⟩
  unfold unitsPerOne
  -- the power is too large to be computed
  generalize 1074 = exponent
  exact pow_two_eq exponent

theorem rankOfNat_lt {value : Nat} (hvalue : value < 2 ^ 64) : rankOfNat value < rankBound := by
  obtain ⟨exponent, hexponent, hunits⟩ := exists_unitsPerOne_eq
  have hwhole : value * unitsPerOne < 2 ^ (53 + (11 + exponent)) := by
    rw [show 53 + (11 + exponent) = 64 + exponent by omega, pow_add, hunits]
    exact Nat.mul_lt_mul_of_pos_right hvalue (Nat.two_pow_pos exponent)
  have hrank := nearestRank_le hwhole
  rw [hexponent] at hrank
  exact hrank.trans_lt (by decide)

/-- The double made of an integer that fits in 64 bits is a nearest one. -/
theorem exists_isNearest {value : Int} (hvalue : value.natAbs < 2 ^ 64) :
    ∃ nearest, ofInt? value = some nearest ∧ nearest.IsNearest value := by
  have hrank := rankOfNat_lt hvalue
  refine ⟨⟨decide (value < 0), _, hrank⟩, by rw [ofInt?, ofRank?, dif_pos hrank], ?_⟩
  intro other
  obtain ⟨rank, hother⟩ := exists_dist_le value other
  refine le_trans ?_ hother
  rw [inUnits]
  simp only [decide_eq_true_eq]
  rw [abs_sub_signed]
  exact Int.ofNat_le.mpr (dist_units_nearestRank_le (value.natAbs * unitsPerOne) rank)

end TreeQuery.Double
