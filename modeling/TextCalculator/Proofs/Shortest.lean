import TextCalculator.Decimal.Shortest
import TextCalculator.Proofs.Rounding

/-!
# The shortest decimal reads back

`Decimal.shortest` only ever settles on a decimal that reads back as the magnitude it was asked for,
and if no shorter one does, the full expansion is left, which is exact. Moving zeros into the
exponent afterwards does not change what is read (`rank_normalize`). So a magnitude and a
sign are what the shortest decimal reads as (`toBinary64_shortest`).
-/

namespace TextCalculator.Decimal

-- Powers of whole numbers are the built-in ones, also where a more general power is in scope.
attribute [local instance (2000)] instPowNat

open Binary64

/-- The rank of the magnitude nearest to a decimal. -/
abbrev rank (d : Decimal) : Nat := decimalRank d.digits d.exponent

/-! ### Zeros at the end -/

theorem rank_dropZeros (digits : Nat) (exponent : Int) :
    (dropZeros digits exponent).rank = decimalRank digits exponent := by
  fun_induction dropZeros digits exponent with
  | case1 digits exponent h ih =>
    have hshift := decimalRank_shift (digits / 10) (exponent + 1) 1
    rw [Nat.pow_one, Nat.div_mul_cancel (Nat.dvd_of_mod_eq_zero h.2),
      show exponent + 1 - (1 : Nat) = exponent by omega] at hshift
    rw [ih, hshift]
  | case2 digits exponent h => rfl

/-- The decimal without zeros at the end is read as the same number. -/
theorem rank_normalize (d : Decimal) : d.normalize.rank = d.rank := by
  rw [normalize]
  split
  · next h =>
    rw [rank, rank, h, decimalRank_eq_zero (.inl rfl), decimalRank_eq_zero (.inl rfl)]
  · exact rank_dropZeros d.digits d.exponent

/-! ### The search -/

theorem readsBack_iff {r : Nat} {d : Decimal} :
    readsBack r d = true ↔ ofRank false d.rank = ofRank false r := by
  rw [readsBack, decide_eq_true_iff, d.toBinary64_eq_ofRank]

/-- The full expansion is exact. -/
theorem rank_expansion (r : Nat) : (expansion r).rank = r := by
  have hpos : 0 < decimalDen (-(unitPlaces : Int)) := Nat.pow_pos (by decide)
  refine Eq.trans ?_ (rankOfQuotient_unitsOfRank r)
  apply rankOfQuotient_eq_of_mul_eq hpos Nat.one_pos
  simp only [expansion, decimalNum, decimalDen, Int.toNat_neg_natCast, Int.neg_neg,
    Int.toNat_natCast, Nat.pow_zero, Nat.mul_one]
  rw [Nat.mul_assoc, ← Nat.mul_pow]

/-- A neighbour that the search settles on reads back. -/
theorem readsBack_of_neighbour? {r count : Nat} {full d : Decimal}
    (h : neighbour? r full count = some d) : readsBack r d = true := by
  rw [neighbour?] at h
  split at h
  · next hbelow habove =>
    obtain rfl := Option.some.inj h
    split <;> assumption
  · next hbelow _ => exact Option.some.inj h ▸ hbelow
  · next _ habove => exact Option.some.inj h ▸ habove
  · exact absurd h (by simp)

/-- The shortest decimal of a magnitude reads back. -/
theorem readsBack_shortest (r : Nat) : readsBack r (shortest r) = true := by
  rw [readsBack_iff, shortest, rank_normalize, ← readsBack_iff]
  cases hsearch : List.findSome? (neighbour? r (expansion r))
      (List.range (Nat.toDigits 10 (expansion r).digits).length).reverse with
  | none => rw [Option.getD_none, readsBack_iff, rank_expansion]
  | some d =>
    obtain ⟨count, -, hcount⟩ := List.exists_of_findSome?_eq_some hsearch
    exact readsBack_of_neighbour? hcount

/-- The shortest decimal of a magnitude is read, with either sign, as that magnitude. -/
theorem toBinary64_shortest (negative : Bool) (r : Fin magnitudeCount) :
    (shortest r).toBinary64 negative = .finite negative r := by
  have hback := readsBack_iff.1 (readsBack_shortest r)
  have hrank : (shortest r).rank = r := by
    rw [ofRank, ofRank, dif_pos r.isLt] at hback
    split at hback
    · exact congrArg Fin.val (Binary64.finite.inj hback).2
    · exact absurd hback (by simp)
  rw [toBinary64_eq_ofRank, ← rank, hrank, ofRank, dif_pos r.isLt]

end TextCalculator.Decimal
