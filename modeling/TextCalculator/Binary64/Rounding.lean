import TextCalculator.Binary64.Basic

/-!
# Rounding to binary64

The one rounding that arithmetic and the reading of decimals go through: a nonnegative quotient of
whole numbers, in units, goes to the nearest magnitude, a tie to the even one.

## Why the rank can be rounded as a whole number

Between two consecutive powers of two the magnitudes are evenly spaced, so there the rank grows in
step with the value. `rankOfQuotient` divides by that spacing, rounds, and adds the rank at which
the stretch begins. A quotient that rounds up to the next power of two lands on the first rank of
the next stretch, and every stretch begins at an even rank, so no case needs repair.
-/

namespace TextCalculator.Binary64

-- Powers of whole numbers are the built-in ones, also where a more general power is in scope.
attribute [local instance (2000)] instPowNat

/-- The whole number nearest to `num / den`, of two equally near ones the even one. -/
def roundToEven (num den : Nat) : Nat :=
  let below := num / den
  let rest := num % den
  if 2 * rest < den then below
  else if den < 2 * rest then below + 1
  else below + below % 2

/-- The rank nearest to `num / den` units. The value is below `2 ^ (53 + doublings)` units, where
the step is `2 ^ doublings` units. -/
def rankOfQuotient (num den : Nat) : Nat :=
  let doublings := (num / den).log2 - 52
  doublings * binade + roundToEven num (den * 2 ^ doublings)

/-- The number nearest to `num / den` units with the given sign; infinity when that is too large. -/
def ofQuotient (negative : Bool) (num den : Nat) : Binary64 :=
  ofRank negative (rankOfQuotient num den)

/-- The number nearest to `digits * 10 ^ exponent` with the given sign. A value below `10 ^ (-400)`
is far below half a unit and one from `10 ^ 400` on far above the largest magnitude; both are
answered before a power of ten is built, so that the work is bounded by the digits given. -/
def ofDecimal (negative : Bool) (digits : Nat) (exponent : Int) : Binary64 :=
  if digits = 0 ∨ exponent + digits.log2 < -400 then zero negative
  else if 400 ≤ exponent then infinity negative
  else ofQuotient negative (digits * 10 ^ exponent.toNat * one) (10 ^ (-exponent).toNat)

end TextCalculator.Binary64
