/-!
# Ranges of code points

A class of characters is given by the ranges of code points that it consists of.
-/

namespace TextCalculator.Text

/-- Whether a character lies in one of the ranges, each given by its first and its last code
point. -/
def isWithin (ranges : List (Nat × Nat)) (c : Char) : Bool :=
  ranges.any fun (first, last) ↦ first ≤ c.toNat && c.toNat ≤ last

end TextCalculator.Text
