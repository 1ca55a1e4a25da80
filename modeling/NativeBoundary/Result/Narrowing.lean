/-!
# Narrowing a double to single precision

A thread of one platform family hands a single-precision result back in a double-width register.
Narrowing finds the nearest single-precision pattern with exact integer arithmetic on the fields of
the double: ties go to the even significand, results below the normal range become subnormal, and
everything from halfway past the largest finite value on becomes an infinity.
-/

set_option autoImplicit false

namespace NativeBoundary.Binary64

/-- The quotient nearest to `numerator / denominator`, the even one of two equally near. -/
def roundHalfEven (numerator denominator : Nat) : Nat :=
  let quotient := numerator / denominator
  let twice := 2 * (numerator % denominator)
  if denominator < twice ∨ (denominator = twice ∧ quotient % 2 = 1) then quotient + 1 else quotient

def signBit (bits : UInt64) : Nat := bits.toNat >>> 63

def exponentField (bits : UInt64) : Nat := bits.toNat >>> 52 % 0x800

def fractionField (bits : UInt64) : Nat := bits.toNat % 0x10000000000000

def isNaN (bits : UInt64) : Bool :=
  exponentField bits = 2047 && fractionField bits ≠ 0

def significand (bits : UInt64) : Nat :=
  if exponentField bits = 0 then fractionField bits else 0x10000000000000 + fractionField bits

/-- Exponent of a finite double, biased; a subnormal one has the exponent of the least normal. -/
def scale (bits : UInt64) : Nat :=
  max (exponentField bits) 1

/-- Magnitude part of the single-precision pattern nearest to a finite double.

The significand counts units of `2 ^ (scale - 1075)`.  The single-precision grid near the value has
the unit `2 ^ (binade - 149)`, which is `2 ^ drop` of those, so rounding divides by `2 ^ drop`.  A
pattern is its binade times `2 ^ 23` plus the rounded significand, also where rounding carries into
the next binade. -/
def narrowMagnitude (bits : UInt64) : Nat :=
  let binade := scale bits - 897
  let drop := binade + 926 - scale bits
  min (binade <<< 23 + roundHalfEven (significand bits) (1 <<< drop)) 0x7f800000

/-- The single-precision pattern of a double, in the low half of a word.  A double that is not a
number becomes the quiet single-precision pattern with the top of its payload. -/
def narrow (bits : UInt64) : UInt64 :=
  let magnitude :=
    if exponentField bits = 2047 then
      if fractionField bits = 0 then 0x7f800000
      else 0x7fc00000 + fractionField bits >>> 29 % 0x400000
    else narrowMagnitude bits
  UInt64.ofNat (signBit bits <<< 31 + magnitude)

end NativeBoundary.Binary64

namespace NativeBoundary.Binary32

def isNaN (bits : UInt32) : Bool :=
  bits.toNat >>> 23 % 0x100 = 255 && bits.toNat % 0x800000 ≠ 0

end NativeBoundary.Binary32
