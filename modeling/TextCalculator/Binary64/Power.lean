import TextCalculator.Binary64.Rounding

/-!
# Powers of binary64 numbers

`pow x y` is the number nearest to the power, with the special cases of the C standard: any number
to the power zero and one to any power are one, even for `nan`. The standard does not say how close
to the power the result has to be; the nearest number is one admissible choice.

## How a power is rounded

A rank is the number of midpoints between consecutive magnitudes that lie below the value. Midpoints
below the value come first, so `countBelow` finds their number bit by bit, and only the comparison
of a power with a midpoint is left.

Two positive numbers compare as their binary logarithms do. `log2Below` and `log2Above` enclose a
logarithm digit by digit: squaring a number between one and two doubles its logarithm, and the
square reaches two exactly when the next binary digit is one. Rounding each square down gives a
lower bound, rounding it up an upper bound.

## When the comparison is a tie

The two logarithms are enclosed ever more narrowly, up to 640 binary places, and are taken as equal
if they are still not told apart. A power that is a midpoint is never told apart from it, and one
that is close to a midpoint without being it is expected to differ within the first few dozen places
beyond the 53 of the format. So this decides ties, and a tie goes to the even rank.
-/

namespace TextCalculator.Binary64

-- Powers of whole numbers are the built-in ones, also where a more general power is in scope.
attribute [local instance (2000)] instPowNat

/-! ### Enclosing a binary logarithm -/

/-- The first `places` binary digits of a lower bound of the logarithm of `z / 2 ^ width`, a number
from one up to two. -/
def fractionBelow (width : Nat) : (places z : Nat) → Nat
  | 0, _ => 0
  | places + 1, z =>
    let square := z * z / 2 ^ width
    if square < 2 ^ (width + 1) then fractionBelow width places square
    else 2 ^ places + fractionBelow width places (square / 2)

/-- The first `places` binary digits of an upper bound of the logarithm of `z / 2 ^ width`, a number
from one up to two. -/
def fractionAbove (width : Nat) : (places z : Nat) → Nat
  | 0, _ => 1
  | places + 1, z =>
    let square := (z * z + (2 ^ width - 1)) / 2 ^ width
    if square < 2 ^ (width + 1) then fractionAbove width places square
    else 2 ^ places + fractionAbove width places ((square + 1) / 2)

/-- The digits kept beyond the places asked for while squaring. -/
abbrev guardDigits : Nat := 16

/-- A lower bound of the binary logarithm of `n`, in steps of `2 ^ (-places)`. -/
def log2Below (places n : Nat) : Nat :=
  let width := places + guardDigits
  n.log2 * 2 ^ places + fractionBelow width places (n * 2 ^ width / 2 ^ n.log2)

/-- An upper bound of the binary logarithm of `n`, in steps of `2 ^ (-places)`. -/
def log2Above (places n : Nat) : Nat :=
  let width := places + guardDigits
  n.log2 * 2 ^ places +
    fractionAbove width places ((n * 2 ^ width + (2 ^ n.log2 - 1)) / 2 ^ n.log2)

/-! ### Comparing a power with a midpoint -/

/-- Compares the power of `base` units by a signed number of units with `halves` half units, from
logarithms with the given number of places; `none` when they are not told apart. -/
def comparePowerAt (base exponent : Nat) (inverted : Bool) (halves places : Nat) :
    Option Ordering :=
  let low : Int := exponent * (log2Below places base - unitPlaces * 2 ^ places)
  let high : Int := exponent * (log2Above places base - unitPlaces * 2 ^ places)
  let (low, high) := if inverted then (-high, -low) else (low, high)
  if high < (log2Below places halves - (unitPlaces + 1) * 2 ^ places : Int) * one then some .lt
  else if (log2Above places halves - (unitPlaces + 1) * 2 ^ places : Int) * one < low then some .gt
  else none

/-- Compares the power of `base` units by a signed number of units with `halves` half units. -/
def comparePower (base exponent : Nat) (inverted : Bool) (halves : Nat) : Ordering :=
  ([80, 160, 320, 640].findSome? (comparePowerAt base exponent inverted halves)).getD .eq

/-- How many of the numbers from `start` up to `start + 2 ^ bits` pass a test that is passed by none
after the first failure, added to `start`. -/
def countBelow (test : Nat → Bool) : (bits start : Nat) → Nat
  | 0, start => start
  | bits + 1, start =>
    countBelow test bits (if test (start + 2 ^ bits - 1) then start + 2 ^ bits else start)

/-- The rank nearest to the power of `base` units by a signed number of units. -/
def rankOfPower (base exponent : Nat) (inverted : Bool) : Nat :=
  countBelow
    (fun rank ↦
      match comparePower base exponent inverted (unitsOfRank rank + unitsOfRank (rank + 1)) with
      | .lt => false
      | .eq => rank % 2 = 1
      | .gt => true)
    63 0

/-! ### The power -/

/-- Whether a number is a whole number. Infinities count as such. -/
def isWhole : Binary64 → Bool
  | nan => false
  | infinity _ => true
  | finite _ rank => unitsOfRank rank % one = 0

/-- Whether a number is an odd whole number. -/
def isOdd : Binary64 → Bool
  | finite _ rank => unitsOfRank rank % (2 * one) = one
  | _ => false

/-- The rank of a magnitude, infinity having the rank after the finite ones. -/
def rank? : Binary64 → Option Nat
  | nan => none
  | infinity _ => some magnitudeCount
  | finite _ rank => some rank

/-- Power. A base without its sign decides the magnitude, and the result is negative exactly when
the base is and the exponent is odd.

How precise a power is, is left open where it is specified, and mathematical libraries differ in the
last place (as they do at `1.3^0.78`). The correctly rounded power is one admissible choice, and no
statement about all expressions depends on it: each holds of whatever number stands here. -/
def pow (x y : Binary64) : Binary64 :=
  if y.isZero ∨ x = finite false ⟨rankOfOne, by decide⟩ then ofRank false rankOfOne
  else match x.rank?, y with
  | none, _ | _, nan => nan
  | some base, infinity inverted =>
    if base = rankOfOne then ofRank false rankOfOne
    else if (base < rankOfOne) = inverted then infinity false
    else zero false
  | some base, finite inverted exponent =>
    let negative := x.isNegative && y.isOdd
    if base = 0 then if inverted then infinity negative else zero negative
    else if base = magnitudeCount then if inverted then zero negative else infinity negative
    else if x.isNegative && !y.isWhole then nan
    else if base = rankOfOne then ofRank negative rankOfOne
    else ofRank negative (rankOfPower (unitsOfRank base) (unitsOfRank exponent) inverted)

end TextCalculator.Binary64
