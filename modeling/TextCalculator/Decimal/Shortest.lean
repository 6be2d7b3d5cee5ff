import TextCalculator.Decimal.Basic

/-!
# Shortest decimals

The decimal with the fewest digits that reads back as a given magnitude; of several, the nearest to
it; of two equally near ones, the larger.

## Why two candidates for each length suffice

Every magnitude has a finite decimal `expansion`. For a given number of digits the decimals are
evenly spaced, and those that read back as the magnitude surround it, so if there is any, then one
of its two neighbours, the expansion cut off (`below`) or that and one more in the last place
(`above`), is among them. `shortest` tries the lengths in turn, beginning with one digit. The full
expansion is the last that it tries, and it reads back, so the search does not fail.
-/

namespace TextCalculator.Decimal

-- Powers of whole numbers are the built-in ones, also where a more general power is in scope.
attribute [local instance (2000)] instPowNat

/-- The full decimal expansion of the magnitude with this rank: since `2 ^ (-1)` is `5 * 10 ^ (-1)`,
a unit has as many decimal places as binary ones. -/
def expansion (rank : Nat) : Decimal :=
  ⟨Binary64.unitsOfRank rank * 5 ^ Binary64.unitPlaces, -Binary64.unitPlaces⟩

/-- The decimal without its last `count` digits. -/
def below (d : Decimal) (count : Nat) : Decimal :=
  ⟨d.digits / 10 ^ count, d.exponent + count⟩

/-- The decimal without its last `count` digits, and one more in the last place that is kept. -/
def above (d : Decimal) (count : Nat) : Decimal :=
  ⟨d.digits / 10 ^ count + 1, d.exponent + count⟩

/-- Whether a decimal reads back as the magnitude with this rank. -/
def readsBack (rank : Nat) (d : Decimal) : Bool :=
  d.toBinary64 false = Binary64.ofRank false rank

/-- The neighbour of an expansion without its last `count` digits that reads back as the magnitude
with this rank; the nearer one if both do, and the upper one of two equally near. -/
def neighbour? (rank : Nat) (d : Decimal) (count : Nat) : Option Decimal :=
  match readsBack rank (d.below count), readsBack rank (d.above count) with
  | true, true =>
    some (if 2 * (d.digits % 10 ^ count) < 10 ^ count then d.below count else d.above count)
  | true, false => some (d.below count)
  | false, true => some (d.above count)
  | false, false => none

/-- The shortest decimal that reads back as the magnitude with this rank. -/
def shortest (rank : Nat) : Decimal :=
  let full := expansion rank
  let counts := (List.range (Nat.toDigits 10 full.digits).length).reverse
  ((counts.findSome? (neighbour? rank full)).getD full).normalize

end TextCalculator.Decimal
