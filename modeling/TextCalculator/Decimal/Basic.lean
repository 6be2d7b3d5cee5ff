import TextCalculator.Binary64.Rounding

/-!
# Decimal numbers

A nonnegative number as a whole number of powers of ten. Several decimals may have one value;
`normalize` picks the one whose last digit is not zero.
-/

namespace TextCalculator

/-- The number `digits * 10 ^ exponent`. -/
structure Decimal where
  /-- The digits, read as a whole number. -/
  digits : Nat
  /-- The power of ten that the last digit counts. -/
  exponent : Int
deriving DecidableEq

namespace Decimal

/-- The binary64 number nearest to a decimal, with the given sign. -/
def toBinary64 (d : Decimal) (negative : Bool) : Binary64 :=
  Binary64.ofDecimal negative d.digits d.exponent

/-- Moves the zeros at the end of the digits into the exponent. -/
def dropZeros (digits : Nat) (exponent : Int) : Decimal :=
  if h : digits ≠ 0 ∧ digits % 10 = 0 then dropZeros (digits / 10) (exponent + 1)
  else ⟨digits, exponent⟩
termination_by digits

/-- The decimal of the same value whose last digit is not zero; zero has the exponent zero. -/
def normalize (d : Decimal) : Decimal :=
  if d.digits = 0 then ⟨0, 0⟩ else dropZeros d.digits d.exponent

end Decimal

end TextCalculator
