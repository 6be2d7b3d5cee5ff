import TextCalculator.Expression.Redex
import TextCalculator.Numeral.Literal

/-!
# Rounds

A round of an evaluation computes a redex and puts the written result in its place.

The text gets shorter or longer, but it always has fewer seams afterwards (`seams_after_lt`): the
redex had at least one, the written result has none, and none comes up where the result meets what
stands around it.
-/

namespace TextCalculator

/-- The value of a redex: both operands are read as numbers, and the operator is applied. -/
def Redex.value (r : Redex) : Except EvalError Binary64 := do
  let x ← Numeral.read r.left
  let y ← Numeral.read r.right
  r.operator.apply x y

/-- A completed round. -/
structure Round where
  /-- What was computed. -/
  redex : Redex
  /-- The result. -/
  value : Binary64
deriving DecidableEq

namespace Round

/-- The text before the round. -/
def before (r : Round) : List Char := r.redex.text

/-- The text after the round. -/
def after (r : Round) : List Char := r.redex.replace (Numeral.write r.value)

/-- A round leaves fewer seams than there were. -/
theorem seams_after_lt {cs : List Char} {r : Round} (h : Redex.first? cs = some r.redex) :
    seams r.after < seams cs := by
  obtain ⟨op, hop⟩ := Redex.exists_find?_of_first? h
  exact Redex.seams_replace_lt hop (Numeral.write_ne_nil _) (Numeral.seams_write _)

end Round

end TextCalculator
