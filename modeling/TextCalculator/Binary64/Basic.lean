/-!
# Binary64 numbers

The numbers of the IEEE 754 binary64 format as data, with their interchange encoding.

## Ranks and units

A finite number is a sign and a *rank*: the position of its magnitude among all finite magnitudes,
counted upward from zero. The encoding lists magnitudes in this order, so a rank is read off the
lower 63 bits, and the order of magnitudes is the order of ranks.

Every finite magnitude is a whole number of *units*, the unit being the least positive number `2 ^
(-1074)`. `unitsOfRank` gives that whole number; all arithmetic is exact arithmetic on units
followed by one rounding.

## One value that is not a number

The encoding has many patterns for "not a number", and no operation here tells them apart, so there
is one value `nan`. It is equal to itself as data; comparisons of numbers never look at it.
-/

namespace TextCalculator

-- Powers of whole numbers are the built-in ones, also where a more general power is in scope.
attribute [local instance (2000)] instPowNat

namespace Binary64

/-- The number of magnitudes with one exponent: one for each fraction of 52 bits. -/
abbrev binade : Nat := 2 ^ (52 : Nat)

/-- The number of finite magnitudes. -/
abbrev magnitudeCount : Nat := 2047 * binade

end Binary64

/-- A binary64 number. -/
inductive Binary64 where
  /-- Not a number. -/
  | nan
  /-- An infinite number. -/
  | infinity (negative : Bool)
  /-- A finite number, given by its sign and the rank of its magnitude. -/
  | finite (negative : Bool) (rank : Fin Binary64.magnitudeCount)
deriving DecidableEq

namespace Binary64

/-! ### Ranks -/

/-- The magnitude of a rank, in units. The first two exponent fields share the unit as their step;
each later one doubles the step. -/
def unitsOfRank (rank : Nat) : Nat :=
  let doublings := rank / binade - 1
  (rank - doublings * binade) * 2 ^ doublings

/-- The number of binary places after the point that a unit takes. -/
abbrev unitPlaces : Nat := 1074

/-- The number of units in one. -/
abbrev one : Nat := 2 ^ unitPlaces

/-- The rank of the magnitude one. -/
abbrev rankOfOne : Nat := 1023 * binade

/-- The number with a sign and a rank. The ranks from `magnitudeCount` on are those of magnitudes
too large for the format, and stand for infinity. -/
def ofRank (negative : Bool) (rank : Nat) : Binary64 :=
  if h : rank < magnitudeCount then finite negative ⟨rank, h⟩ else infinity negative

/-- Zero with a sign. -/
def zero (negative : Bool) : Binary64 := finite negative ⟨0, by decide⟩

/-! ### Signs and classes -/

/-- Whether a number carries a minus sign. -/
def isNegative : Binary64 → Bool
  | nan => false
  | infinity negative => negative
  | finite negative _ => negative

/-- Whether a number is a zero, of either sign. -/
def isZero : Binary64 → Bool
  | finite _ rank => rank.val = 0
  | _ => false

/-- The number with the opposite sign. -/
def neg : Binary64 → Binary64
  | nan => nan
  | infinity negative => infinity !negative
  | finite negative rank => finite (!negative) rank

/-- The number without its sign. -/
def abs : Binary64 → Binary64
  | nan => nan
  | infinity _ => infinity false
  | finite _ rank => finite false rank

instance : Neg Binary64 := ⟨neg⟩

/-! ### Interchange encoding -/

/-- The value of the sign bit in the encoding. -/
abbrev signBit : Nat := 2 ^ (63 : Nat)

/-- The number that an encoding stands for: a sign bit above 63 bits that hold the rank, the rank
`magnitudeCount` for infinity, and any larger one for `nan`. -/
def ofBits (bits : UInt64) : Binary64 :=
  let negative := signBit ≤ bits.toNat
  let rank := bits.toNat % signBit
  if rank ≤ magnitudeCount then ofRank negative rank else nan

/-- The encoding of a number, with one pattern for `nan`. -/
def toBits : Binary64 → UInt64
  | nan => 0x7ff8000000000000
  | infinity negative => encode negative magnitudeCount
  | finite negative rank => encode negative rank
where
  /-- A sign bit above a rank. -/
  encode (negative : Bool) (rank : Nat) : UInt64 :=
    .ofNat (negative.toNat * signBit + rank)

end Binary64

end TextCalculator
