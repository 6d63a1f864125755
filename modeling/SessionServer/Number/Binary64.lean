/-!
Contract: finite binary64 values as exact integers, and rounding of decimal numerals to them.

Owns:
- `Binary64`, a sign with `significand * 2 ^ exponent`;
- `Binary64.ofRatio` and `Binary64.ofDecimal`, rounding to the nearest value with ties to the even
  significand, gradual underflow to zero, and no value at all on overflow.

Does not own: arithmetic on binary64 values, infinities or NaN. No numeral denotes them.
-/

namespace SessionServer

/-- A finite binary64 value: `significand * 2 ^ exponent` under a sign.

Values made by this module are normalised: the significand is below `2 ^ 53`, the exponent is at
least `-1074`, and a significand below `2 ^ 52` occurs only at exponent `-1074`. -/
structure Binary64 where
  negative : Bool
  significand : Nat
  exponent : Int
deriving DecidableEq, Repr

namespace Binary64

/-- The least exponent, where values are spaced evenly down to zero. -/
def minExponent : Int := -1074

/-- The greatest exponent of a finite value. -/
def maxExponent : Int := 971

/-- Significands are below this bound. -/
def significandBound : Nat := 0x20000000000000

def zero (negative : Bool) : Binary64 := ⟨negative, 0, minExponent⟩

/-- Numerator and denominator of a positive ratio divided by `2 ^ exponent`. -/
def scaled (numerator denominator : Nat) (exponent : Int) : Nat × Nat :=
  if exponent < 0 then (numerator * Nat.pow 2 (-exponent).toNat, denominator)
  else (numerator, denominator * Nat.pow 2 exponent.toNat)

/-- The nearest integer to a ratio; halves go to the even neighbour. -/
def roundHalfEven (numerator denominator : Nat) : Nat :=
  let quotient := numerator / denominator
  let remainder := numerator % denominator
  if 2 * remainder < denominator then quotient
  else if denominator < 2 * remainder then quotient + 1
  else quotient + quotient % 2

/-- The exponent at which a positive ratio has a significand of at most 53 bits. -/
def exponentFor (numerator denominator : Nat) : Int :=
  let coarse : Int := (numerator.log2 : Int) - (denominator.log2 : Int) - 53
  let (top, bottom) := scaled numerator denominator coarse
  let fitted := if significandBound ≤ top / bottom then coarse + 1 else coarse
  max minExponent fitted

/-- The binary64 value nearest to a ratio; `none` when it lies beyond the finite values. -/
def ofRatio (negative : Bool) (numerator denominator : Nat) : Option Binary64 :=
  if numerator = 0 then some (zero negative)
  else
    let exponent := exponentFor numerator denominator
    let (top, bottom) := scaled numerator denominator exponent
    let rounded := roundHalfEven top bottom
    let value : Binary64 :=
      if rounded = significandBound then ⟨negative, rounded / 2, exponent + 1⟩
      else ⟨negative, rounded, exponent⟩
    if maxExponent < value.exponent then none
    else if value.significand = 0 then some (zero negative)
    else some value

/-- The binary64 value nearest to `digits * 10 ^ exponent`.

Numerals far outside the range are settled by their order of magnitude, so an exponent of many
digits costs nothing. -/
def ofDecimal (negative : Bool) (digits : Nat) (exponent : Int) : Option Binary64 :=
  if digits = 0 then some (zero negative)
  else
    let magnitude : Int := ((Nat.toDigits 10 digits).length : Int) + exponent
    if 400 < magnitude then none
    else if magnitude < -400 then some (zero negative)
    else if exponent < 0 then ofRatio negative digits (Nat.pow 10 (-exponent).toNat)
    else ofRatio negative (digits * Nat.pow 10 exponent.toNat) 1

end Binary64

end SessionServer
