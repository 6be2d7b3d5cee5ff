import Mathlib.Algebra.Order.Field.Rat
import Mathlib.Data.Nat.Cast.Order.Field
import Mathlib.Tactic.Linarith
import TextCalculator.Proofs.Rounding

/-!
# Rounding goes to the nearest number

What rounding is, said without how it is done: no magnitude is nearer than the one that is taken,
and its rank is even if another one is equally near (`IsNearestRank`). At most one rank is such
(`IsNearestRank.unique`). The ranks beyond those of the format take part as if the format went on,
and stand for infinity, so that a number is too large from the middle between the largest magnitude
and the next one on.

Magnitudes grow with their ranks, so only the two around a number are to be compared
(`isNearestRank_of_between`), and of these `rankOfQuotient` takes the nearer one
(`isNearestRank_rankOfQuotient`). So a decimal is read as the number nearest to it, however small or
large it is (`Decimal.isRounded_iff`).
-/

namespace TextCalculator

-- Powers of whole numbers are the built-in ones, also where a more general power is in scope.
attribute [local instance (2000)] instPowNat

namespace Binary64

/-- The magnitude of a rank, as a number. -/
def magnitudeOfRank (rank : Nat) : ℚ := unitsOfRank rank / one

/-- A rank is the one that a nonnegative number is rounded to. -/
structure IsNearestRank (q : ℚ) (rank : Nat) : Prop where
  /-- No magnitude is nearer. -/
  le (other : Nat) : |magnitudeOfRank rank - q| ≤ |magnitudeOfRank other - q|
  /-- Of two that are equally near it is the even one. -/
  even (other : Nat) (hne : other ≠ rank)
    (h : |magnitudeOfRank rank - q| = |magnitudeOfRank other - q|) : rank % 2 = 0

/-- A number of the format is a nonnegative number, rounded and with a sign. -/
def IsRounded (negative : Bool) (q : ℚ) (x : Binary64) : Prop :=
  ∃ rank, IsNearestRank q rank ∧ x = ofRank negative rank

/-! ### The two magnitudes around a number -/

theorem cast_one_pos : (0 : ℚ) < one := Nat.cast_pos.2 (Nat.two_pow_pos unitPlaces)

/-- A greater rank has a greater magnitude. -/
theorem magnitudeOfRank_strictMono : StrictMono magnitudeOfRank :=
  strictMono_nat_of_lt_succ fun rank ↦
    div_lt_div_of_pos_right (Nat.cast_lt.2 (unitsOfRank_lt_succ rank)) cast_one_pos

/-- A whole number compares with a magnitude as its units do. This brings the bounds back to natural
numbers. -/
theorem le_magnitudeOfRank_iff {n rank : Nat} :
    (n : ℚ) ≤ magnitudeOfRank rank ↔ n * one ≤ unitsOfRank rank := by
  rw [magnitudeOfRank, le_div_iff₀ cast_one_pos, ← Nat.cast_mul, Nat.cast_le]

theorem magnitudeOfRank_lt_iff {n rank : Nat} :
    magnitudeOfRank rank < n ↔ unitsOfRank rank < n * one := by
  rw [magnitudeOfRank, div_lt_iff₀ cast_one_pos, ← Nat.cast_mul, Nat.cast_lt]

variable {q : ℚ} {r rank other : Nat}

/-- Below a number, the greater of two magnitudes is the nearer one. -/
theorem abs_lt_abs_of_lt_rank (hlow : magnitudeOfRank rank ≤ q) (h : other < rank) :
    |magnitudeOfRank rank - q| < |magnitudeOfRank other - q| := by
  have hlt := magnitudeOfRank_strictMono h
  rw [abs_of_nonpos (by linarith), abs_of_nonpos (by linarith)]
  linarith

/-- Above a number, the smaller of two magnitudes is the nearer one. -/
theorem abs_lt_abs_of_rank_lt (hhigh : q ≤ magnitudeOfRank rank) (h : rank < other) :
    |magnitudeOfRank rank - q| < |magnitudeOfRank other - q| := by
  have hlt := magnitudeOfRank_strictMono h
  rw [abs_of_nonneg (by linarith), abs_of_nonneg (by linarith)]
  linarith

/-- Of the two magnitudes around a number the nearer one is nearest of all, and the even one if they
are equally near. -/
theorem isNearestRank_of_between {below above : ℚ} (hlow : magnitudeOfRank r + below = q)
    (hhigh : q + above = magnitudeOfRank (r + 1)) (hbelow : 0 ≤ below) (habove : 0 ≤ above)
    (hrank : rank = r ∧ below ≤ above ∨ rank = r + 1 ∧ above ≤ below)
    (heven : below = above → rank % 2 = 0) : IsNearestRank q rank := by
  have hr : |magnitudeOfRank r - q| = below := by
    rw [← hlow, sub_add_cancel_left, abs_neg, abs_of_nonneg hbelow]
  have hr' : |magnitudeOfRank (r + 1) - q| = above := by
    rw [← hhigh, add_sub_cancel_left, abs_of_nonneg habove]
  have hle : |magnitudeOfRank rank - q| ≤ below ∧ |magnitudeOfRank rank - q| ≤ above := by
    obtain ⟨rfl, hle⟩ | ⟨rfl, hle⟩ := hrank
    · exact ⟨hr.le, hr.le.trans hle⟩
    · exact ⟨hr'.le.trans hle, hr'.le⟩
  -- magnitudes grow with the rank, so every other one is farther than one of the two neighbours
  have hfar (other : Nat) (h : ¬(other = r ∨ other = r + 1)) :
      |magnitudeOfRank rank - q| < |magnitudeOfRank other - q| := by
    rcases Nat.lt_or_ge other r with hother | hother
    · exact (hle.1.trans hr.ge).trans_lt (abs_lt_abs_of_lt_rank (by linarith) hother)
    · exact (hle.2.trans hr'.ge).trans_lt (abs_lt_abs_of_rank_lt (by linarith) (by omega))
  refine ⟨fun other ↦ ?_, fun other hne heq ↦ heven ?_⟩
  · by_cases h : other = r ∨ other = r + 1
    · obtain rfl | rfl := h
      · exact hle.1.trans hr.ge
      · exact hle.2.trans hr'.ge
    · exact (hfar other h).le
  · have hother : other = r ∨ other = r + 1 := by
      by_contra h
      exact (hfar other h).ne heq
    obtain ⟨rfl, rfl⟩ | ⟨rfl, rfl⟩ : rank = r ∧ other = r + 1 ∨ rank = r + 1 ∧ other = r := by omega
    · rw [← hr, ← hr', heq]
    · rw [← hr, ← hr', heq]

/-- One rank is nearest. -/
theorem IsNearestRank.unique (h : IsNearestRank q rank) (h' : IsNearestRank q other) :
    rank = other := by
  by_contra hne
  wlog hlt : rank < other generalizing rank other
  · exact this h' h (Ne.symm hne) (by omega)
  have heq : |magnitudeOfRank rank - q| = |magnitudeOfRank other - q| :=
    le_antisymm (h.le other) (h'.le rank)
  have heven := h.even other (Ne.symm hne) heq
  have heven' := h'.even rank hne heq.symm
  -- equally near and both even, they have an odd one between them, which is nearer than both
  rcases le_total q (magnitudeOfRank (rank + 1)) with hq | hq
  · exact absurd (h'.le (rank + 1)) (not_le.2 (abs_lt_abs_of_rank_lt hq (by omega)))
  · exact absurd (h.le (rank + 1)) (not_le.2 (abs_lt_abs_of_lt_rank hq (by omega)))

/-! ### Quotients -/

variable {num den : Nat}

/-- A magnitude as a quotient over the denominator of another number. -/
theorem magnitudeOfRank_eq_div (rank : Nat) (hden : 0 < den) :
    magnitudeOfRank rank = (unitsOfRank rank * den : Nat) / (den * one) := by
  have hden' : (den : ℚ) ≠ 0 := Nat.cast_ne_zero.2 (Nat.ne_of_gt hden)
  rw [magnitudeOfRank, Nat.cast_mul, mul_comm (unitsOfRank rank : ℚ), mul_div_mul_left _ _ hden']

/-- A quotient of units is rounded to the nearest magnitude. -/
theorem isNearestRank_rankOfQuotient (num : Nat) (hden : 0 < den) :
    IsNearestRank (num / (den * one)) (rankOfQuotient num den) := by
  obtain ⟨r, below, above, hlow, hhigh, hrank, heven⟩ := exists_around_rankOfQuotient num hden
  have hscale : (0 : ℚ) < den * one := mul_pos (Nat.cast_pos.2 hden) cast_one_pos
  have hpos (a : Nat) : (0 : ℚ) ≤ a / (den * one) := div_nonneg (Nat.cast_nonneg a) hscale.le
  have hle {a b : Nat} (h : a ≤ b) : (a / (den * one) : ℚ) ≤ b / (den * one) :=
    div_le_div_of_nonneg_right (Nat.cast_le.2 h) hscale.le
  have hlow' : magnitudeOfRank r + below / (den * one) = num / (den * one) := by
    rw [magnitudeOfRank_eq_div r hden, ← add_div, ← Nat.cast_add, hlow]
  have hhigh' : num / (den * one) + above / (den * one) = magnitudeOfRank (r + 1) := by
    rw [magnitudeOfRank_eq_div _ hden, ← hhigh, Nat.cast_add, add_div]
  refine isNearestRank_of_between hlow' hhigh' (hpos below) (hpos above)
    (hrank.imp (And.imp_right hle) (And.imp_right hle)) fun hequal ↦ heven ?_
  exact Nat.cast_injective ((div_left_inj' hscale.ne').1 hequal)

end Binary64

/-! ### Decimals -/

namespace Decimal

open Binary64

/-- The number that a decimal is. -/
def toRat (d : Decimal) : ℚ := d.digits * 10 ^ d.exponent

/-- A decimal is the quotient that is rounded when it is read. -/
theorem toRat_eq_div (d : Decimal) :
    d.toRat = decimalNum d.digits d.exponent / (decimalDen d.exponent * one) := by
  have hone := cast_one_pos.ne'
  have hexponent : (10 : ℚ) ^ d.exponent =
      10 ^ d.exponent.toNat / 10 ^ (-d.exponent).toNat := by
    rw [← zpow_natCast, ← zpow_natCast, ← zpow_sub₀ (by norm_num)]
    congr 1
    omega
  rw [toRat, hexponent, decimalNum, decimalDen, Nat.cast_mul _ one, mul_div_mul_right _ _ hone]
  push_cast
  rw [mul_div_assoc]

/-- **A decimal is read as the number nearest to it.** -/
theorem isRounded_iff {d : Decimal} {negative : Bool} {x : Binary64} :
    IsRounded negative d.toRat x ↔ x = d.toBinary64 negative := by
  have hpos : 0 < decimalDen d.exponent := Nat.pow_pos (by decide)
  have hnearest : IsNearestRank d.toRat (decimalRank d.digits d.exponent) := by
    rw [toRat_eq_div]
    exact isNearestRank_rankOfQuotient _ hpos
  rw [toBinary64_eq_ofRank]
  refine ⟨fun ⟨rank, hrank, hx⟩ ↦ ?_, fun hx ↦ ⟨_, hnearest, hx⟩⟩
  rw [hx, hrank.unique hnearest]

end Decimal

end TextCalculator
