import TextCalculator.Binary64.Rounding

/-!
# Arithmetic on binary64 numbers

The correctly rounded operations: each finite case computes an exact quotient in units and rounds it
once. The cases for infinities and zeros are those of IEEE 754.

The remainder has the sign of the dividend and is exact. `truncate` cuts a number to a whole number
in a given range.
-/

namespace TextCalculator.Binary64

/-- A magnitude with its sign, in units. -/
def signedUnits (negative : Bool) (rank : Nat) : Int :=
  if negative then -(unitsOfRank rank : Int) else unitsOfRank rank

/-- Sum. An exact sum of zero is positive unless both terms are negative. -/
def add : Binary64 → Binary64 → Binary64
  | nan, _ | _, nan => nan
  | infinity s, infinity t => if s = t then infinity s else nan
  | infinity s, finite .. => infinity s
  | finite .., infinity t => infinity t
  | finite s a, finite t b =>
    let sum := signedUnits s a + signedUnits t b
    if sum = 0 then zero (s && t) else ofQuotient (sum < 0) sum.natAbs 1

/-- Difference. -/
def sub (x y : Binary64) : Binary64 := add x (neg y)

/-- Product. -/
def mul : Binary64 → Binary64 → Binary64
  | nan, _ | _, nan => nan
  | infinity s, infinity t => infinity (s ^^ t)
  | infinity s, finite t b => if b.val = 0 then nan else infinity (s ^^ t)
  | finite s a, infinity t => if a.val = 0 then nan else infinity (s ^^ t)
  | finite s a, finite t b => ofQuotient (s ^^ t) (unitsOfRank a * unitsOfRank b) one

/-- Quotient. -/
def div : Binary64 → Binary64 → Binary64
  | nan, _ | _, nan => nan
  | infinity _, infinity _ => nan
  | infinity s, finite t _ => infinity (s ^^ t)
  | finite s _, infinity t => zero (s ^^ t)
  | finite s a, finite t b =>
    if b.val = 0 then if a.val = 0 then nan else infinity (s ^^ t)
    else ofQuotient (s ^^ t) (unitsOfRank a * one) (unitsOfRank b)

/-- Remainder of the division cut toward zero, with the sign of the dividend. It is a whole number
of the smaller step of the two operands, so it is exact. -/
def rem : Binary64 → Binary64 → Binary64
  | nan, _ | _, nan => nan
  | infinity _, _ => nan
  | x@(finite ..), infinity _ => x
  | finite s a, finite _ b =>
    if b.val = 0 then nan else ofQuotient s (unitsOfRank a % unitsOfRank b) 1

/-- The whole part of a number, cut toward zero and brought into the range from `low` to `high`;
zero for `nan`. -/
def truncate (low high : Int) : Binary64 → Int
  | nan => 0
  | infinity negative => if negative then low else high
  | finite negative rank =>
    let whole : Int := (unitsOfRank rank / one : Nat)
    max low (min high (if negative then -whole else whole))

/-- The number nearest to a whole number; zero is positive. -/
def ofInt (n : Int) : Binary64 := ofQuotient (n < 0) (n.natAbs * one) 1

instance : Add Binary64 := ⟨add⟩
instance : Sub Binary64 := ⟨sub⟩
instance : Mul Binary64 := ⟨mul⟩
instance : Div Binary64 := ⟨div⟩
instance : Mod Binary64 := ⟨rem⟩

end TextCalculator.Binary64
