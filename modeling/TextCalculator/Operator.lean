import TextCalculator.Binary64.Arithmetic
import TextCalculator.Binary64.Power
import TextCalculator.EvalError

/-!
# Operators

The seven binary operators, the order in which they are looked for, and what they compute. The order
is not that of precedence: `/` comes before `//`, and `+` before `-`.
-/

namespace TextCalculator

/-- A binary operator. -/
inductive Operator where
  /-- Power. -/
  | power
  /-- Product. -/
  | product
  /-- Quotient. -/
  | quotient
  /-- Quotient cut to a whole number of 32 bits. -/
  | wholeQuotient
  /-- Remainder with the sign of the dividend. -/
  | remainder
  /-- Sum. -/
  | sum
  /-- Difference. -/
  | difference
deriving DecidableEq

namespace Operator

/-- The operators in the order in which they are looked for. -/
def scanOrder : List Operator :=
  [power, product, quotient, wholeQuotient, remainder, sum, difference]

/-- How an operator is written. -/
def symbol : Operator → List Char
  | power => ['^']
  | product => ['*']
  | quotient => ['/']
  | wholeQuotient => ['/', '/']
  | remainder => ['%']
  | sum => ['+']
  | difference => ['-']

/-- The operators that precede one in the order in which they are looked for. -/
def earlier (op : Operator) : List Operator := scanOrder.takeWhile (· ≠ op)

/-- Whether an operator divides, so that it has no value when the right operand is zero. -/
def divides : Operator → Bool
  | quotient | wholeQuotient | remainder => true
  | _ => false

/-- The value of an operator where it has one. -/
def compute (x y : Binary64) : Operator → Binary64
  | power => x.pow y
  | product => x * y
  | quotient => x / y
  | wholeQuotient => .ofInt ((x / y).truncate (-2147483648) 2147483647)
  | remainder => x % y
  | sum => x + y
  | difference => x - y

/-- Applies an operator. -/
def apply (op : Operator) (x y : Binary64) : Except EvalError Binary64 :=
  if op.divides && y.isZero then .error .divisionByZero else .ok (op.compute x y)

/-- No operator is left out of the scan. -/
theorem mem_scanOrder (op : Operator) : op ∈ scanOrder := by cases op <;> decide

theorem symbol_ne_nil (op : Operator) : op.symbol ≠ [] := by cases op <;> decide

end Operator

end TextCalculator
