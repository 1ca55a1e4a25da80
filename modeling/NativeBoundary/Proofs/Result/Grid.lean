import Mathlib.Algebra.Order.Ring.Abs
import Mathlib.Algebra.Order.Field.Rat
import Mathlib.Tactic.Linarith
import Mathlib.Tactic.Positivity
import Mathlib.Tactic.Ring
import NativeBoundary.Result.Narrowing

/-!
# Rounding on a grid

The magnitudes of a floating-point format, in the order of their patterns, rise from zero, and
within a binade they are evenly spaced.  A value between two neighbours is rounded by the quotient
that says where in the cell it lies.  That the neighbour is the nearest point of the whole grid
follows from the order alone, and so does where an odd point is the last one that is rounded to.
-/

set_option autoImplicit false

namespace NativeBoundary

/-! ## The nearest point -/

/-- A point of a grid that is nearest to a value, the even one of two. -/
structure NearestEven (grid : Nat → ℚ) (x : ℚ) (point : Nat) : Prop where
  nearest (other : Nat) : |x - grid point| ≤ |x - grid other|
  even (other : Nat) (tie : |x - grid other| = |x - grid point|) : other = point ∨ Even point

namespace NearestEven

variable {grid : Nat → ℚ} {x : ℚ} {c point : Nat}

theorem le_distance_below (rises : StrictMono grid) {other : Nat} (below : other ≤ c) :
    x - grid c ≤ |x - grid other| := by
  have := rises.monotone below
  have := le_abs_self (x - grid other)
  linarith

theorem le_distance_above (rises : StrictMono grid) {other : Nat} (above : c ≤ other) :
    grid c - x ≤ |x - grid other| := by
  have := rises.monotone above
  have := neg_le_abs (x - grid other)
  linarith

theorem of_lower (rises : StrictMono grid) (low : grid c ≤ x)
    (near : 2 * x ≤ grid c + grid (c + 1)) (tie : 2 * x = grid c + grid (c + 1) → Even c) :
    NearestEven grid x c := by
  have distance : |x - grid c| = x - grid c := abs_of_nonneg (by linarith)
  constructor
  · intro other
    rw [distance]
    rcases Nat.lt_or_ge c other with above | below
    · have := le_distance_above (x := x) rises (Nat.succ_le_of_lt above)
      linarith
    · exact le_distance_below rises below
  · intro other same
    rw [distance] at same
    rcases Nat.lt_trichotomy other c with below | rfl | above
    · have := rises below
      have := le_abs_self (x - grid other)
      linarith
    · exact .inl rfl
    · have := le_distance_above (x := x) rises (Nat.succ_le_of_lt above)
      exact .inr (tie (by linarith))

theorem of_upper (rises : StrictMono grid) (high : x ≤ grid (c + 1))
    (near : grid c + grid (c + 1) ≤ 2 * x) (tie : 2 * x = grid c + grid (c + 1) → Even (c + 1)) :
    NearestEven grid x (c + 1) := by
  have distance : |x - grid (c + 1)| = grid (c + 1) - x := by
    rw [abs_sub_comm]
    exact abs_of_nonneg (by linarith)
  constructor
  · intro other
    rw [distance]
    rcases Nat.lt_or_ge c other with above | below
    · exact le_distance_above rises (Nat.succ_le_of_lt above)
    · have := le_distance_below (x := x) rises below
      linarith
  · intro other same
    rw [distance] at same
    rcases Nat.lt_trichotomy other (c + 1) with below | rfl | above
    · have := le_distance_below (x := x) rises (Nat.le_of_lt_succ below)
      exact .inr (tie (by linarith))
    · exact .inl rfl
    · have := rises above
      have := neg_le_abs (x - grid other)
      linarith

/-- A value on the grid is its own nearest point. -/
theorem grid_eq (nearest : NearestEven grid x point) {other : Nat} (same : x = grid other) :
    grid point = x := by
  have least := nearest.nearest other
  rw [same, sub_self, abs_zero] at least
  rw [same]
  exact (sub_eq_zero.1 (abs_nonpos_iff.1 least)).symm

/-- Past an odd point the rounding begins at the middle of the cell above it. -/
theorem le_odd_iff (rises : StrictMono grid) (nearest : NearestEven grid x point) (limit : Nat)
    (odd : ¬Even limit) : point ≤ limit ↔ 2 * x < grid limit + grid (limit + 1) := by
  have step : grid limit < grid (limit + 1) := rises (Nat.lt_succ_self limit)
  constructor
  · intro below
    by_contra past
    -- The point above would be as near, so only an even point is left, and that is further off.
    have near : |x - grid (limit + 1)| ≤ x - grid limit := abs_le.2 ⟨by linarith, by linarith⟩
    have here := le_distance_below (x := x) rises below
    have tie : |x - grid (limit + 1)| = |x - grid point| :=
      le_antisymm (near.trans here) (nearest.nearest _)
    have even : Even point := (nearest.even _ tie).resolve_left (by omega)
    have lower : point < limit := below.lt_of_ne fun same => odd (same ▸ even)
    have := rises lower
    have := le_abs_self (x - grid point)
    linarith
  · intro before
    by_contra above
    have near : |x - grid limit| < grid (limit + 1) - x := abs_lt.2 ⟨by linarith, by linarith⟩
    have here := le_distance_above (x := x) rises (Nat.succ_le_of_lt (Nat.lt_of_not_le above))
    exact absurd (nearest.nearest limit) (not_le.2 (near.trans_le here))

end NearestEven

/-! ## Quotients -/

/-- Rounding a quotient goes to the nearer of the two integers around it, from the middle to the
even one. -/
theorem Binary64.roundHalfEven_cases (numerator denominator : Nat) :
    (roundHalfEven numerator denominator = numerator / denominator ∧
      2 * (numerator % denominator) ≤ denominator ∧
      (2 * (numerator % denominator) = denominator → Even (numerator / denominator))) ∨
    (roundHalfEven numerator denominator = numerator / denominator + 1 ∧
      denominator ≤ 2 * (numerator % denominator) ∧
      (2 * (numerator % denominator) = denominator → Even (numerator / denominator + 1))) := by
  unfold roundHalfEven
  generalize numerator / denominator = quotient
  generalize numerator % denominator = rest
  simp only [Nat.even_iff]
  split
  · next up => exact .inr ⟨rfl, by omega, by omega⟩
  · next down => exact .inl ⟨rfl, by omega, by omega⟩

/-- A cell of a grid that is `denominator` of some unit wide: a value that is `numerator` of the
units is rounded by the quotient. -/
theorem NearestEven.of_quotient {grid : Nat → ℚ} (rises : StrictMono grid) {unit : ℚ}
    (positive : 0 < unit) {numerator denominator start : Nat} (wide : 0 < denominator)
    (parity : Even start)
    (low : grid (start + numerator / denominator) =
      ((numerator / denominator * denominator : Nat) : ℚ) * unit)
    (high : grid (start + numerator / denominator + 1) =
      (((numerator / denominator + 1) * denominator : Nat) : ℚ) * unit) :
    NearestEven grid (numerator * unit)
      (start + Binary64.roundHalfEven numerator denominator) := by
  have parts : (numerator : ℚ) =
      (numerator / denominator : Nat) * denominator + (numerator % denominator : Nat) := by
    exact_mod_cast (Nat.div_add_mod' numerator denominator).symm
  have rest : (numerator % denominator : Nat) * unit ≤ denominator * unit := by
    refine mul_le_mul_of_nonneg_right ?_ positive.le
    exact_mod_cast (Nat.mod_lt numerator wide).le
  have rest' : 0 ≤ (numerator % denominator : Nat) * unit := by positivity
  have middle : 2 * (numerator * unit) = grid (start + numerator / denominator) +
      grid (start + numerator / denominator + 1) →
      2 * (numerator % denominator) = denominator := by
    intro same
    have scaled : (2 * (numerator % denominator : Nat) : ℚ) * unit = denominator * unit := by
      rw [low, high, parts] at same
      push_cast at same
      linarith
    exact_mod_cast mul_right_cancel₀ positive.ne' scaled
  rcases Binary64.roundHalfEven_cases numerator denominator with
    ⟨rounded, near, tie⟩ | ⟨rounded, near, tie⟩
  · rw [rounded]
    have near : (2 * (numerator % denominator : Nat) : ℚ) * unit ≤ denominator * unit :=
      mul_le_mul_of_nonneg_right (by exact_mod_cast near) positive.le
    refine .of_lower rises ?_ ?_ fun same => parity.add (tie (middle same))
    · rw [low, parts]
      push_cast
      linarith
    · rw [low, high, parts]
      push_cast
      linarith
  · rw [rounded, ← Nat.add_assoc]
    have near : (denominator : ℚ) * unit ≤ (2 * (numerator % denominator : Nat) : ℚ) * unit :=
      mul_le_mul_of_nonneg_right (by exact_mod_cast near) positive.le
    refine .of_upper rises ?_ ?_ fun same => ?_
    · rw [high, parts]
      push_cast
      linarith
    · rw [low, high, parts]
      push_cast
      linarith
    · rw [Nat.add_assoc]
      exact parity.add (tie (middle same))

/-! ## Magnitudes -/

/-- The magnitude of a pattern with `w` fraction bits, counted in the least subnormal one. -/
def units (w pattern : Nat) : Nat :=
  (if pattern / 2 ^ w = 0 then pattern % 2 ^ w else 2 ^ w + pattern % 2 ^ w) *
    2 ^ (max (pattern / 2 ^ w) 1 - 1)

/-- A pattern is its binade and a significand; that may also be the first one of the next binade. -/
theorem units_of_significand {w binade k : Nat} (fits : k ≤ 2 ^ (w + 1))
    (normal : binade = 0 ∨ 2 ^ w ≤ k) : units w (binade * 2 ^ w + k) = k * 2 ^ binade := by
  have unit : 0 < 2 ^ w := Nat.two_pow_pos w
  rw [pow_succ] at fits
  unfold units
  rcases Nat.lt_or_ge k (2 ^ w) with subnormal | above
  · obtain rfl := normal.resolve_right (Nat.not_le.2 subnormal)
    simp [Nat.div_eq_of_lt subnormal, Nat.mod_eq_of_lt subnormal]
  · rcases fits.lt_or_eq with inside | rfl
    · obtain ⟨fraction, rfl⟩ := Nat.exists_eq_add_of_le above
      have small : fraction < 2 ^ w := by omega
      have pattern : binade * 2 ^ w + (2 ^ w + fraction) =
          fraction + (binade + 1) * 2 ^ w := by ring
      rw [pattern, Nat.add_mul_div_right _ _ unit, Nat.add_mul_mod_self_right,
        Nat.div_eq_of_lt small, Nat.mod_eq_of_lt small]
      simp
    · have pattern : binade * 2 ^ w + 2 ^ w * 2 = 0 + (binade + 2) * 2 ^ w := by ring
      rw [pattern, Nat.add_mul_div_right _ _ unit, Nat.add_mul_mod_self_right]
      simp [pow_succ]
      ring

theorem exists_significand (w pattern : Nat) : ∃ binade k, pattern = binade * 2 ^ w + k ∧
    k < 2 ^ (w + 1) ∧ (binade = 0 ∨ 2 ^ w ≤ k) := by
  have inside : pattern % 2 ^ w < 2 ^ w := Nat.mod_lt _ (Nat.two_pow_pos w)
  have parts := Nat.div_add_mod' pattern (2 ^ w)
  rw [pow_succ]
  cases exponent : pattern / 2 ^ w with
  | zero =>
    rw [exponent] at parts
    exact ⟨0, pattern % 2 ^ w, by omega, by omega, .inl rfl⟩
  | succ binade =>
    rw [exponent, Nat.succ_mul] at parts
    exact ⟨binade, 2 ^ w + pattern % 2 ^ w, by omega, by omega, .inr (by omega)⟩

theorem units_strictMono (w : Nat) : StrictMono (units w) := by
  refine strictMono_nat_of_lt_succ fun pattern => ?_
  obtain ⟨binade, k, rfl, fits, normal⟩ := exists_significand w pattern
  rw [units_of_significand fits.le normal, Nat.add_assoc,
    units_of_significand fits (normal.imp_right fun above => above.trans (Nat.le_succ k))]
  exact Nat.mul_lt_mul_of_pos_right (Nat.lt_succ_self k) (Nat.two_pow_pos binade)

end NativeBoundary
