import Mathlib.Algebra.Order.Field.Power
import NativeBoundary.Proofs.Result.Grid
import NativeBoundary.Result.Basic

/-!
# Results that travel as doubles

Where a single-precision result comes back as a double, its pattern is the one nearest to the value
of the double, by the rules of the format.  A single-precision number that went into the register
unchanged comes out of it bit for bit.
-/

set_option autoImplicit false

namespace NativeBoundary

/-! ## Values of patterns -/

namespace Binary64

def isFinite (bits : UInt64) : Bool :=
  exponentField bits ≠ 2047

def isInfinite (bits : UInt64) : Bool :=
  exponentField bits = 2047 && fractionField bits = 0

def value (bits : UInt64) : ℚ :=
  (-1) ^ signBit bits * (significand bits * 2 ^ ((scale bits : ℤ) - 1075))

end Binary64

namespace Binary32

def signBit (bits : UInt32) : Nat := bits.toNat >>> 31

def exponentField (bits : UInt32) : Nat := bits.toNat >>> 23 % 0x100

def fractionField (bits : UInt32) : Nat := bits.toNat % 0x800000

/-- Significand of a finite pattern, with the hidden bit of a normal one. -/
def significand (bits : UInt32) : Nat :=
  if exponentField bits = 0 then fractionField bits else 0x800000 + fractionField bits

/-- Exponent of a finite pattern, biased; a subnormal one has the exponent of the least normal. -/
def scale (bits : UInt32) : Nat :=
  max (exponentField bits) 1

def isFinite (bits : UInt32) : Bool :=
  exponentField bits ≠ 255

def isInfinite (bits : UInt32) : Bool :=
  exponentField bits = 255 && fractionField bits = 0

def value (bits : UInt32) : ℚ :=
  (-1) ^ signBit bits * (significand bits * 2 ^ ((scale bits : ℤ) - 150))

/-! ## Patterns by sign and magnitude -/

def magnitude (bits : UInt32) : Nat := bits.toNat % 2 ^ 31

/-- The numbers of the patterns with a clear sign, past the largest finite one as if the exponents
went on. -/
def grid (pattern : Nat) : ℚ :=
  units 23 pattern * 2 ^ (-149 : ℤ)

variable {x y : UInt32}

theorem exponentField_eq (x : UInt32) : exponentField x = magnitude x / 2 ^ 23 := by
  simp only [exponentField, magnitude, Nat.shiftRight_eq_div_pow]
  omega

theorem fractionField_eq (x : UInt32) : fractionField x = magnitude x % 2 ^ 23 := by
  simp only [fractionField, magnitude]
  omega

theorem magnitude_lt (x : UInt32) : magnitude x < 2 ^ 31 :=
  Nat.mod_lt _ (by decide)

theorem ext (sign : signBit x = signBit y) (same : magnitude x = magnitude y) : x = y := by
  refine UInt32.toNat_inj.1 ?_
  simp only [signBit, magnitude, Nat.shiftRight_eq_div_pow] at sign same
  omega

theorem isFinite_iff : isFinite x = true ↔ magnitude x < 0x7f800000 := by
  have := magnitude_lt x
  simp only [isFinite, exponentField_eq, decide_eq_true_eq]
  omega

theorem isInfinite_iff : isInfinite x = true ↔ magnitude x = 0x7f800000 := by
  have := magnitude_lt x
  simp only [isInfinite, exponentField_eq, fractionField_eq, Bool.and_eq_true, decide_eq_true_eq]
  omega

theorem isNaN_iff : isNaN x = true ↔ 0x7f800000 < magnitude x := by
  have := magnitude_lt x
  change (exponentField x = 255 && fractionField x ≠ 0) = true ↔ _
  simp only [exponentField_eq, fractionField_eq, Bool.and_eq_true, decide_eq_true_eq]
  omega

theorem even_significand : Even (significand x) ↔ Even (magnitude x) := by
  simp only [significand, exponentField_eq, fractionField_eq, Nat.even_iff]
  by_cases subnormal : magnitude x / 2 ^ 23 = 0
  · rw [if_pos subnormal]
    omega
  · rw [if_neg subnormal]
    omega

theorem grid_strictMono : StrictMono grid := by
  intro a b less
  have := units_strictMono 23 less
  unfold grid
  gcongr

theorem grid_nonneg (pattern : Nat) : 0 ≤ grid pattern := by
  unfold grid
  positivity

theorem value_eq (x : UInt32) : value x = (-1) ^ signBit x * grid (magnitude x) := by
  have unit : (2 : ℚ) ^ ((scale x : ℤ) - 150) = 2 ^ (scale x - 1) * 2 ^ (-149 : ℤ) := by
    have positive : 1 ≤ scale x := Nat.le_max_right _ _
    rw [← zpow_natCast, ← zpow_add₀ (by norm_num)]
    congr 1
    omega
  have counted : units 23 (magnitude x) = significand x * 2 ^ (scale x - 1) := by
    rw [units, ← exponentField_eq, ← fractionField_eq]
    rfl
  rw [value, grid, unit, counted]
  push_cast
  ring

theorem abs_value (x : UInt32) : |value x| = grid (magnitude x) := by
  rw [value_eq, abs_mul, abs_neg_one_pow, one_mul]
  exact abs_of_nonneg (grid_nonneg _)

theorem value_eq_or_neg (same : magnitude x = magnitude y) :
    value x = value y ∨ value x = -value y := by
  rw [value_eq, value_eq, same]
  rcases neg_one_pow_eq_or ℚ (signBit x) with sx | sx <;>
    rcases neg_one_pow_eq_or ℚ (signBit y) with sy | sy <;> simp [sx, sy]

theorem grid_of_significand {binade k : Nat} (fits : k ≤ 2 ^ 24)
    (normal : binade = 0 ∨ 2 ^ 23 ≤ k) :
    grid (binade * 2 ^ 23 + k) = k * 2 ^ ((binade : ℤ) - 149) := by
  rw [grid, units_of_significand fits normal, sub_eq_add_neg, zpow_add₀ (by norm_num), zpow_natCast]
  push_cast
  ring

theorem grid_last : grid 0x7f7fffff = 2 ^ 128 - 2 ^ 104 := by
  have last : grid (253 * 2 ^ 23 + (2 ^ 24 - 1)) =
      ((2 ^ 24 - 1 : Nat) : ℚ) * 2 ^ (((253 : Nat) : ℤ) - 149) :=
    grid_of_significand (by decide) (by decide)
  norm_num at last ⊢
  exact last

/-- What would come after the largest finite number if the exponents went on. -/
theorem grid_past_last : grid (0x7f7fffff + 1) = 2 ^ 128 := by
  have next : grid (254 * 2 ^ 23 + 2 ^ 23) =
      ((2 ^ 23 : Nat) : ℚ) * 2 ^ (((254 : Nat) : ℤ) - 149) :=
    grid_of_significand (by decide) (by decide)
  norm_num at next ⊢
  exact next

end Binary32

/-! ## Rounding the significand -/

namespace Binary64

variable {d : UInt64}

def binade (bits : UInt64) : Nat :=
  scale bits - 897

def drop (bits : UInt64) : Nat :=
  binade bits + 926 - scale bits

/-- The pattern that a finite double is rounded to on the grid without an end. -/
def rounded (bits : UInt64) : Nat :=
  binade bits * 2 ^ 23 + roundHalfEven (significand bits) (2 ^ drop bits)

theorem narrowMagnitude_eq (d : UInt64) : narrowMagnitude d = min (rounded d) 0x7f800000 := by
  rw [rounded, ← Nat.shiftLeft_eq, ← Nat.one_shiftLeft]
  rfl

theorem significand_lt (d : UInt64) : significand d < 2 ^ 53 := by
  simp only [significand, fractionField]
  by_cases subnormal : exponentField d = 0
  · rw [if_pos subnormal]
    omega
  · rw [if_neg subnormal]
    omega

theorem significand_of_normal (normal : 1 < scale d) : 2 ^ 52 ≤ significand d := by
  have exponent : exponentField d ≠ 0 := by
    unfold scale at normal
    omega
  rw [significand, if_neg exponent]
  omega

theorem abs_value (d : UInt64) :
    |value d| = significand d * 2 ^ ((scale d : ℤ) - 1075) := by
  rw [value, abs_mul, abs_neg_one_pow, one_mul]
  exact abs_of_nonneg (by positivity)

theorem quotient_lt (d : UInt64) : significand d / 2 ^ drop d < 2 ^ 24 := by
  have wide : 29 ≤ drop d := by
    unfold drop binade
    omega
  refine Nat.div_lt_of_lt_mul ?_
  calc significand d < 2 ^ 29 * 2 ^ 24 := significand_lt d
    _ ≤ 2 ^ drop d * 2 ^ 24 := Nat.mul_le_mul_right _ (Nat.pow_le_pow_right (by decide) wide)

theorem quotient_of_normal (d : UInt64) :
    binade d = 0 ∨ 2 ^ 23 ≤ significand d / 2 ^ drop d := by
  rcases Nat.eq_zero_or_pos (binade d) with least | positive
  · exact .inl least
  · have exact29 : drop d = 29 := by
      unfold drop binade at *
      omega
    have large := significand_of_normal (d := d) (by unfold binade at positive; omega)
    rw [exact29]
    exact .inr (by omega)

/-- In units of the significand, the points of the grid are `2 ^ drop` apart. -/
theorem grid_of_quotient {d : UInt64} {k : Nat} (fits : k ≤ 2 ^ 24)
    (normal : binade d = 0 ∨ 2 ^ 23 ≤ k) :
    Binary32.grid (binade d * 2 ^ 23 + k) =
      ((k * 2 ^ drop d : Nat) : ℚ) * 2 ^ ((scale d : ℤ) - 1075) := by
  have exponents : (binade d : ℤ) - 149 = drop d + (scale d - 1075) := by
    unfold drop binade
    omega
  rw [Binary32.grid_of_significand fits normal, exponents, zpow_add₀ (by norm_num), zpow_natCast]
  push_cast
  ring

theorem nearestEven_rounded (d : UInt64) : NearestEven Binary32.grid |value d| (rounded d) := by
  have fits := quotient_lt d
  have normal := quotient_of_normal d
  rw [abs_value, rounded]
  refine .of_quotient Binary32.grid_strictMono (by positivity) (Nat.two_pow_pos _) ?_ ?_ ?_
  · exact (Nat.even_pow.2 ⟨even_two, by decide⟩).mul_left _
  · exact grid_of_quotient fits.le normal
  · rw [Nat.add_assoc]
    exact grid_of_quotient fits (normal.imp_right fun above => above.trans (Nat.le_succ _))

/-! ## The pattern in the register -/

/-- Halfway past the largest finite single-precision number. -/
def overflow : ℚ := 2 ^ 128 - 2 ^ 103

/-- The rounding leaves the finite patterns exactly where a value is halfway past the last one. -/
theorem rounded_lt_iff (d : UInt64) : rounded d < 0x7f800000 ↔ |value d| < overflow := by
  have cut := (nearestEven_rounded d).le_odd_iff Binary32.grid_strictMono 0x7f7fffff (by decide)
  rw [Nat.lt_succ_iff, cut, Binary32.grid_last, Binary32.grid_past_last, overflow]
  constructor <;> intro <;> linarith

def narrowedMagnitude (bits : UInt64) : Nat :=
  if isFinite bits then min (rounded bits) 0x7f800000 else 0x7f800000

theorem narrowedMagnitude_le (d : UInt64) : narrowedMagnitude d ≤ 0x7f800000 := by
  unfold narrowedMagnitude
  split
  · exact Nat.min_le_right _ _
  · exact Nat.le_refl _

theorem signBit_le (d : UInt64) : signBit d ≤ 1 := by
  have := d.toNat_lt
  rw [signBit, Nat.shiftRight_eq_div_pow]
  omega

theorem narrow_toNat (number : isNaN d = false) :
    (narrow d).toNat = signBit d * 2 ^ 31 + narrowedMagnitude d := by
  have sign := signBit_le d
  have bounded := narrowedMagnitude_le d
  have word : narrow d = UInt64.ofNat (signBit d * 2 ^ 31 + narrowedMagnitude d) := by
    unfold narrow narrowedMagnitude isFinite
    unfold isNaN at number
    rw [← Nat.shiftLeft_eq, ← narrowMagnitude_eq]
    by_cases special : exponentField d = 2047
    · have infinite : fractionField d = 0 := by simpa [special] using number
      simp [special, infinite]
    · simp [special]
  rw [word, UInt64.toNat_ofNat', Nat.mod_eq_of_lt]
  omega

theorem toUInt32_narrow (number : isNaN d = false) :
    (narrow d).toUInt32.toNat = signBit d * 2 ^ 31 + narrowedMagnitude d := by
  have sign := signBit_le d
  have bounded := narrowedMagnitude_le d
  rw [UInt64.toNat_toUInt32, narrow_toNat number, Nat.mod_eq_of_lt]
  omega

theorem signBit_narrow (number : isNaN d = false) :
    Binary32.signBit (narrow d).toUInt32 = signBit d := by
  have bounded := narrowedMagnitude_le d
  rw [Binary32.signBit, toUInt32_narrow number, Nat.shiftRight_eq_div_pow]
  omega

theorem magnitude_narrow (number : isNaN d = false) :
    Binary32.magnitude (narrow d).toUInt32 = narrowedMagnitude d := by
  have bounded := narrowedMagnitude_le d
  rw [Binary32.magnitude, toUInt32_narrow number]
  omega

/-! ## Rounding to nearest -/

/-- A finite pattern that is nearest to the value of a double, with an even significand where
another number is as near. -/
structure Nearest (d : UInt64) (p : UInt32) : Prop where
  finite : Binary32.isFinite p = true
  nearest (q : UInt32) (finite : Binary32.isFinite q = true) :
    |value d - Binary32.value p| ≤ |value d - Binary32.value q|
  even (q : UInt32) (finite : Binary32.isFinite q = true)
    (tie : |value d - Binary32.value q| = |value d - Binary32.value p|) :
    Binary32.value q = Binary32.value p ∨ Even (Binary32.significand p)

/-- The single-precision pattern that a double is rounded to. -/
structure RoundsTo (d : UInt64) (p : UInt32) : Prop where
  sign : Binary32.signBit p = signBit d
  nearest (finite : isFinite d = true) (small : |value d| < overflow) : Nearest d p
  infinite (large : isInfinite d = true ∨ isFinite d = true ∧ overflow ≤ |value d|) :
    Binary32.isInfinite p = true

theorem distance_eq {p : UInt32} (sign : Binary32.signBit p = signBit d) :
    |value d - Binary32.value p| = |(|value d| - Binary32.grid (Binary32.magnitude p))| := by
  rw [Binary32.value_eq, sign, abs_value, value, ← mul_sub, abs_mul, abs_neg_one_pow, one_mul]

theorem distance_le (d : UInt64) (q : UInt32) :
    |(|value d| - Binary32.grid (Binary32.magnitude q))| ≤ |value d - Binary32.value q| := by
  rw [← Binary32.abs_value]
  exact abs_abs_sub_abs_le _ _

/-- As far from a number as from its opposite is only zero, or what is as far from zero. -/
theorem value_eq_of_opposite {p q : UInt32} (opposite : Binary32.value q = -Binary32.value p)
    (nearest : NearestEven Binary32.grid |value d| (Binary32.magnitude p))
    (tie : |value d - Binary32.value q| = |value d - Binary32.value p|) :
    Binary32.value q = Binary32.value p := by
  have product : value d * Binary32.value p = 0 := by
    have squares := sq_eq_sq_iff_abs_eq_abs _ _ |>.2 tie
    rw [opposite] at squares
    linarith
  have zero : Binary32.value p = 0 := by
    rcases mul_eq_zero.1 product with none | none
    · have start : Binary32.grid 0 = 0 := by simp [Binary32.grid, units]
      have least : |value d| = Binary32.grid 0 := by rw [none, start, abs_zero]
      rw [Binary32.value_eq, nearest.grid_eq least, least, start, mul_zero]
    · exact none
  rw [opposite, zero, neg_zero]

theorem Nearest.of_grid {p : UInt32} (sign : Binary32.signBit p = signBit d)
    (finite : Binary32.isFinite p = true)
    (nearest : NearestEven Binary32.grid |value d| (Binary32.magnitude p)) : Nearest d p := by
  refine ⟨finite, fun q _ => ?_, fun q _ tie => ?_⟩
  · rw [distance_eq sign]
    exact (nearest.nearest _).trans (distance_le d q)
  · have onGrid : |(|value d| - Binary32.grid (Binary32.magnitude q))| =
        |(|value d| - Binary32.grid (Binary32.magnitude p))| := by
      refine le_antisymm ?_ (nearest.nearest _)
      rw [← distance_eq sign, ← tie]
      exact distance_le d q
    rcases nearest.even _ onGrid with same | even
    · -- The other pattern has the same magnitude, but may have the other sign.
      left
      rcases Binary32.value_eq_or_neg same with equal | opposite
      · exact equal
      · exact value_eq_of_opposite opposite nearest tie
    · exact .inr (Binary32.even_significand.2 even)

theorem narrow_roundsTo (number : isNaN d = false) : RoundsTo d (narrow d).toUInt32 := by
  refine ⟨signBit_narrow number, fun finite small => ?_, fun large => ?_⟩
  · have inside := (rounded_lt_iff d).2 small
    have pattern : Binary32.magnitude (narrow d).toUInt32 = rounded d := by
      rw [magnitude_narrow number, narrowedMagnitude, if_pos finite, Nat.min_eq_left inside.le]
    refine .of_grid (signBit_narrow number) ?_ ?_
    · rw [Binary32.isFinite_iff, pattern]
      exact inside
    · rw [pattern]
      exact nearestEven_rounded d
  · rw [Binary32.isInfinite_iff, magnitude_narrow number, narrowedMagnitude]
    rcases large with infinite | ⟨finite, beyond⟩
    · have special : isFinite d = false := by
        simp only [isInfinite, Bool.and_eq_true, decide_eq_true_eq] at infinite
        simp [isFinite, infinite.1]
      rw [special]
      rfl
    · rw [if_pos finite, Nat.min_eq_right]
      exact Nat.le_of_not_lt fun inside => not_lt.2 beyond ((rounded_lt_iff d).1 inside)

end Binary64
end NativeBoundary
