import NativeBoundary.Proofs.Result.Rounding

/-!
# Single-precision results in a double-width register

A single-precision number has an exact double.  Rounded again, the double gives back the pattern of
the number, its sign included; so a result that is handed back in a double-width register is read
bit for bit.
-/

set_option autoImplicit false

namespace NativeBoundary

namespace Binary64

/-- The double has the sign of a single-precision pattern and stands for the same number, or is the
same infinity. -/
structure Widens (d : UInt64) (x : UInt32) : Prop where
  sign : signBit d = Binary32.signBit x
  same : isInfinite d = true ∧ Binary32.isInfinite x = true ∨
    isFinite d = true ∧ Binary32.isFinite x = true ∧ value d = Binary32.value x

theorem abs_value_lt_overflow {x : UInt32} (finite : Binary32.isFinite x = true) :
    |Binary32.value x| < overflow := by
  have below : Binary32.magnitude x ≤ 0x7f7fffff :=
    Nat.le_of_lt_succ (Binary32.isFinite_iff.1 finite)
  calc |Binary32.value x| = Binary32.grid (Binary32.magnitude x) := Binary32.abs_value x
    _ ≤ Binary32.grid 0x7f7fffff := Binary32.grid_strictMono.monotone below
    _ = 2 ^ 128 - 2 ^ 104 := Binary32.grid_last
    _ < overflow := by norm_num [overflow]

theorem Widens.isNaN {d : UInt64} {x : UInt32} (widens : Widens d x) : isNaN d = false := by
  rcases widens.same with ⟨special, -⟩ | ⟨ordinary, -⟩
  · simp only [isInfinite, Bool.and_eq_true, decide_eq_true_eq] at special
    simp [Binary64.isNaN, special.2]
  · simp only [isFinite, decide_eq_true_eq] at ordinary
    simp [Binary64.isNaN, ordinary]

/-- What a double that widens a pattern is rounded to is the pattern. -/
theorem RoundsTo.eq_of_widens {d : UInt64} {p x : UInt32} (rounds : RoundsTo d p)
    (widens : Widens d x) : p = x := by
  refine Binary32.ext (rounds.sign.trans widens.sign) ?_
  rcases widens.same with ⟨special, infinite⟩ | ⟨ordinary, finite, same⟩
  · have past := rounds.infinite (.inl special)
    rw [Binary32.isInfinite_iff.1 infinite, Binary32.isInfinite_iff.1 past]
  · have small : |value d| < overflow := same ▸ abs_value_lt_overflow finite
    have least := (rounds.nearest ordinary small).nearest x finite
    rw [same, sub_self, abs_zero] at least
    have equal : Binary32.value x = Binary32.value p := sub_eq_zero.1 (abs_nonpos_iff.1 least)
    refine Binary32.grid_strictMono.injective ?_
    rw [← Binary32.abs_value, ← Binary32.abs_value, equal]

theorem fields_of_toNat {d : UInt64} {sign magnitude : Nat} (small : magnitude < 2 ^ 63)
    (pattern : d.toNat = sign * 2 ^ 63 + magnitude) :
    signBit d = sign ∧ exponentField d = magnitude / 2 ^ 52 ∧
      fractionField d = magnitude % 2 ^ 52 := by
  have word := d.toNat_lt
  have high : d.toNat / 2 ^ 52 = sign * 2 ^ 11 + magnitude / 2 ^ 52 := by omega
  refine ⟨?_, ?_, ?_⟩
  · rw [signBit, Nat.shiftRight_eq_div_pow]
    omega
  · rw [exponentField, Nat.shiftRight_eq_div_pow, high]
    omega
  · rw [fractionField]
    omega

end Binary64

namespace Binary32

variable {x : UInt32}

def top (bits : UInt32) : Nat :=
  Nat.log2 (significand bits)

def widenedMagnitude (bits : UInt32) : Nat :=
  if isInfinite bits then 0x7ff * 2 ^ 52
  else if significand bits = 0 then 0
  else (scale bits + 872 + top bits) * 2 ^ 52 + significand bits * 2 ^ (52 - top bits)

def widen (bits : UInt32) : UInt64 :=
  UInt64.ofNat (signBit bits * 2 ^ 63 + widenedMagnitude bits)

theorem significand_lt (x : UInt32) : significand x < 2 ^ 24 := by
  simp only [significand, fractionField]
  by_cases subnormal : exponentField x = 0
  · rw [if_pos subnormal]
    omega
  · rw [if_neg subnormal]
    omega

theorem scale_le (finite : isFinite x = true) : scale x ≤ 254 := by
  have bounded : exponentField x < 0x100 := Nat.mod_lt _ (by decide)
  simp only [isFinite, decide_eq_true_eq] at finite
  unfold scale
  omega

theorem isFinite_iff_ordinary :
    isFinite x = true ↔ isNaN x = false ∧ ¬isInfinite x = true := by
  rw [Bool.eq_false_iff, ne_eq, isFinite_iff, isNaN_iff, isInfinite_iff]
  omega

theorem signBit_le (x : UInt32) : signBit x ≤ 1 := by
  have := x.toNat_lt
  rw [signBit, Nat.shiftRight_eq_div_pow]
  omega

theorem top_le (some : significand x ≠ 0) : top x ≤ 23 :=
  Nat.le_of_lt_succ ((Nat.log2_lt some).2 (significand_lt x))

/-- A significand that is not zero, moved up to the hidden bit of a double. -/
theorem hidden_bit (some : significand x ≠ 0) :
    2 ^ 52 ≤ significand x * 2 ^ (52 - top x) ∧ significand x * 2 ^ (52 - top x) < 2 ^ 53 := by
  have bounded := top_le some
  have least : 2 ^ top x ≤ significand x := Nat.log2_self_le some
  have most : significand x < 2 ^ (top x + 1) := Nat.lt_log2_self
  constructor
  · calc 2 ^ 52 = 2 ^ top x * 2 ^ (52 - top x) := by rw [← pow_add]; congr 1; omega
      _ ≤ significand x * 2 ^ (52 - top x) := Nat.mul_le_mul_right _ least
  · calc significand x * 2 ^ (52 - top x) < 2 ^ (top x + 1) * 2 ^ (52 - top x) :=
        Nat.mul_lt_mul_of_pos_right most (Nat.two_pow_pos _)
      _ = 2 ^ 53 := by rw [← pow_add]; congr 1; omega

theorem widenedMagnitude_lt (number : isNaN x = false) : widenedMagnitude x < 2 ^ 63 := by
  unfold widenedMagnitude
  split
  · decide
  · next ordinary =>
    split
    · decide
    · next some =>
      have low := top_le some
      have bounded := scale_le (isFinite_iff_ordinary.2 ⟨number, ordinary⟩)
      have bit := hidden_bit some
      omega

theorem widen_toNat (number : isNaN x = false) :
    (widen x).toNat = signBit x * 2 ^ 63 + widenedMagnitude x := by
  have sign := signBit_le x
  have small := widenedMagnitude_lt number
  rw [widen, UInt64.toNat_ofNat', Nat.mod_eq_of_lt]
  omega

theorem signBit_widen (number : isNaN x = false) : Binary64.signBit (widen x) = signBit x :=
  (Binary64.fields_of_toNat (widenedMagnitude_lt number) (widen_toNat number)).1

theorem exponentField_widen (number : isNaN x = false) :
    Binary64.exponentField (widen x) = widenedMagnitude x / 2 ^ 52 :=
  (Binary64.fields_of_toNat (widenedMagnitude_lt number) (widen_toNat number)).2.1

theorem fractionField_widen (number : isNaN x = false) :
    Binary64.fractionField (widen x) = widenedMagnitude x % 2 ^ 52 :=
  (Binary64.fields_of_toNat (widenedMagnitude_lt number) (widen_toNat number)).2.2

theorem isInfinite_widen (infinite : isInfinite x = true) :
    Binary64.isInfinite (widen x) = true := by
  have number : isNaN x = false := by
    rw [Bool.eq_false_iff]
    exact isNaN_iff.not.2 (by rw [isInfinite_iff.1 infinite]; decide)
  rw [Binary64.isInfinite, exponentField_widen number, fractionField_widen number, widenedMagnitude,
    if_pos infinite]
  rfl

theorem fields_of_widen (finite : isFinite x = true) (some : significand x ≠ 0) :
    Binary64.exponentField (widen x) = scale x + 873 + top x ∧
      Binary64.significand (widen x) = significand x * 2 ^ (52 - top x) := by
  obtain ⟨number, ordinary⟩ := isFinite_iff_ordinary.1 finite
  obtain ⟨hidden, fits⟩ := hidden_bit some
  have magnitude : widenedMagnitude x =
      (scale x + 872 + top x) * 2 ^ 52 + significand x * 2 ^ (52 - top x) := by
    rw [widenedMagnitude, if_neg ordinary, if_neg some]
  have exponent : Binary64.exponentField (widen x) = scale x + 873 + top x := by
    rw [exponentField_widen number, magnitude]
    omega
  refine ⟨exponent, ?_⟩
  rw [Binary64.significand, exponent, if_neg (by omega), fractionField_widen number, magnitude]
  omega

theorem value_widen (finite : isFinite x = true) :
    Binary64.isFinite (widen x) = true ∧ Binary64.value (widen x) = value x := by
  obtain ⟨number, ordinary⟩ := isFinite_iff_ordinary.1 finite
  by_cases zero : significand x = 0
  · have magnitude : widenedMagnitude x = 0 := by
      rw [widenedMagnitude, if_neg ordinary, if_pos zero]
    have exponent : Binary64.exponentField (widen x) = 0 := by
      rw [exponentField_widen number, magnitude, Nat.zero_div]
    have none : Binary64.significand (widen x) = 0 := by
      rw [Binary64.significand, if_pos exponent, fractionField_widen number, magnitude,
        Nat.zero_mod]
    exact ⟨by simp [Binary64.isFinite, exponent], by simp [Binary64.value, value, none, zero]⟩
  · obtain ⟨exponent, same⟩ := fields_of_widen finite zero
    have bounded := scale_le finite
    have low := top_le zero
    have up : Binary64.scale (widen x) = scale x + 873 + top x := by
      rw [Binary64.scale, exponent]
      omega
    have exponents : (scale x : ℤ) - 150 =
        (52 - top x : Nat) + (((scale x + 873 + top x : Nat) : ℤ) - 1075) := by omega
    constructor
    · rw [Binary64.isFinite, exponent, decide_eq_true_eq]
      omega
    · rw [Binary64.value, value, signBit_widen number, same, up, exponents,
        zpow_add₀ (by norm_num), zpow_natCast]
      push_cast
      ring

/-- Every single-precision number has an exact double. -/
theorem widens_widen (number : isNaN x = false) : Binary64.Widens (widen x) x := by
  refine ⟨signBit_widen number, ?_⟩
  by_cases special : isInfinite x = true
  · exact .inl ⟨isInfinite_widen special, special⟩
  · have finite := isFinite_iff_ordinary.2 ⟨number, special⟩
    obtain ⟨ordinary, same⟩ := value_widen finite
    exact .inr ⟨ordinary, finite, same⟩

end Binary32

/-- A double that is a number comes out of the register as the single-precision pattern that it
rounds to, with nothing in the high half of the word.  A single-precision number that was widened
into the register is read back bit for bit, and every number can be. -/
theorem widened_result_rounds_to_nearest :
    (∀ d, Binary64.isNaN d = false →
      (FloatReturn.widened.normalize d).toNat < 2 ^ 32 ∧
        Binary64.RoundsTo d (FloatReturn.widened.normalize d).toUInt32) ∧
    ∀ x, Binary32.isNaN x = false →
      (∃ d, Binary64.Widens d x) ∧
      ∀ (O : Type) (r : Registers), Binary64.Widens r.fpr x →
        (r.result .widened .float : CallResult O) = .float x := by
  constructor
  · intro d number
    have sign := Binary64.signBit_le d
    have bounded := Binary64.narrowedMagnitude_le d
    refine ⟨?_, Binary64.narrow_roundsTo number⟩
    rw [FloatReturn.normalize, Binary64.narrow_toNat number]
    omega
  · intro x number
    refine ⟨⟨_, Binary32.widens_widen number⟩, fun O r widens => ?_⟩
    have rounds := Binary64.narrow_roundsTo widens.isNaN
    exact congrArg CallResult.float (rounds.eq_of_widens widens)

/-- The middle between one and the next number is rounded to one; the negative number closest to
zero is read back. -/
theorem widened_result_rounds_to_nearest_one :
    Binary64.RoundsTo 0x3ff0000010000000 0x3f800000 ∧
      (({ fpr := 0xb6a0000000000000 } : Registers).result .widened .float : CallResult Unit) =
        .float 0x80000001 := by
  constructor
  · exact (widened_result_rounds_to_nearest.1 0x3ff0000010000000 (by decide)).2
  · refine (widened_result_rounds_to_nearest.2 0x80000001 (by decide)).2 Unit _ ?_
    have exact : Binary32.widen 0x80000001 = 0xb6a0000000000000 := by decide +kernel
    rw [← exact]
    exact Binary32.widens_widen (by decide)

end NativeBoundary
