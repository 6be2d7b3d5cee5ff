import TextCalculator.Proofs.ChainEvaluation
import TextCalculator.Proofs.Nearest

/-!
# Whole quotients are exact

A whole quotient is computed from a quotient that was rounded before it is cut. Of two whole numbers
up to `2 ^ 53` the whole part survives the rounding (`Binary64.IsNearestRank.div_one`), for two
reasons:

* It is a magnitude of the format (`Binary64.exists_unitsOfRank_eq`), and rounding does not pass
  over a magnitude (`Binary64.IsNearestRank.whole_le`).
* A quotient with the divisor `b` that is below a whole number is at least `1 / b` below it. To be
  rounded up it would have to lie in the upper half of a step, which would then have at least the
  length `2 / b`. The steps at the quotient are shorter (`Binary64.IsNearestRank.lt_whole`).

The text of a whole quotient is that of one operation, so there is nothing else to evaluate
(`Chain.evaluate_link`), and integers up to `2 ^ 53` are read exactly
(`Binary64.exists_toBinary64_eq`).
-/

namespace TextCalculator

-- Powers of whole numbers are the built-in ones, also where a more general power is in scope.
attribute [local instance (2000)] instPowNat

namespace Binary64

/-! ### Whole numbers of the format -/

/-- A whole number up to twice the binade is a number of steps of a stretch. -/
theorem exists_two_pow_mul {n : Nat} (hn : n ≠ 0) (h : n ≤ 2 * binade) :
    ∃ i, i ≤ 52 ∧ binade ≤ n * 2 ^ i ∧ n * 2 ^ i ≤ 2 * binade := by
  refine ⟨52 - n.log2, Nat.sub_le _ _, ?_, ?_⟩
  · calc binade
        ≤ 2 ^ (n.log2 + (52 - n.log2)) := Nat.pow_le_pow_right (by decide) (by omega)
      _ = 2 ^ n.log2 * 2 ^ (52 - n.log2) := Nat.pow_add _ _ _
      _ ≤ n * 2 ^ (52 - n.log2) := Nat.mul_le_mul_right _ (Nat.log2_self_le hn)
  · rcases Nat.lt_or_ge 52 n.log2 with hlog | hlog
    · rwa [Nat.sub_eq_zero_of_le (Nat.le_of_lt hlog), Nat.pow_zero, Nat.mul_one]
    · calc n * 2 ^ (52 - n.log2)
          ≤ 2 ^ (n.log2 + 1) * 2 ^ (52 - n.log2) :=
            Nat.mul_le_mul_right _ (Nat.le_of_lt Nat.lt_log2_self)
        _ = 2 ^ (n.log2 + 1 + (52 - n.log2)) := (Nat.pow_add _ _ _).symm
        _ = 2 ^ 53 := by rw [show n.log2 + 1 + (52 - n.log2) = 53 by omega]
        _ = 2 * binade := rfl

/-- The whole numbers up to twice the binade are magnitudes of the format. -/
theorem exists_unitsOfRank_eq {n : Nat} (h : n ≤ 2 * binade) :
    ∃ rank, unitsOfRank rank = n * one := by
  rcases eq_or_ne n 0 with rfl | hn
  · exact ⟨0, by rw [unitsOfRank_zero, Nat.zero_mul]⟩
  · obtain ⟨i, hi, hlow, hhigh⟩ := exists_two_pow_mul hn h
    refine ⟨(unitPlaces - i) * binade + n * 2 ^ i, ?_⟩
    have hplaces : i + (unitPlaces - i) = unitPlaces := by
      have : unitPlaces = 1074 := rfl
      omega
    rw [unitsOfRank_stretch (.inr hlow) hhigh, Nat.mul_assoc, ← Nat.pow_add, hplaces]

theorem two_mul_binade_le_one : 2 * binade ≤ one :=
  calc 2 * binade
      = 2 ^ 53 := rfl
    _ ≤ one := Nat.pow_le_pow_right Nat.two_pos (by decide)

/-- A step is the unit or a small part of where it begins. -/
theorem step_mul_le (r : Nat) :
    magnitudeOfRank (r + 1) - magnitudeOfRank r = 1 / one ∨
      (magnitudeOfRank (r + 1) - magnitudeOfRank r) * binade ≤ magnitudeOfRank r := by
  obtain ⟨k, m, rfl, hlow, hhigh⟩ := exists_stretch r
  have hstep : magnitudeOfRank (k * binade + m + 1) - magnitudeOfRank (k * binade + m) =
      (2 ^ k : Nat) / one := by
    rw [magnitudeOfRank, magnitudeOfRank, Nat.add_assoc, unitsOfRank_stretch hlow hhigh.le,
      unitsOfRank_stretch (hlow.imp_right Nat.le_succ_of_le) hhigh, Nat.succ_mul, ← sub_div,
      Nat.cast_add, add_sub_cancel_left]
  rw [hstep]
  refine hlow.imp (fun hk ↦ by rw [hk, Nat.pow_zero, Nat.cast_one]) fun hm ↦ ?_
  rw [magnitudeOfRank, unitsOfRank_stretch hlow hhigh.le, div_mul_eq_mul_div, ← Nat.cast_mul,
    Nat.mul_comm]
  exact div_le_div_of_nonneg_right (Nat.cast_le.2 (Nat.mul_le_mul_right _ hm)) cast_one_pos.le

/-! ### Rounding a quotient -/

/-- Rounding does not go below a magnitude that is not above the number. -/
theorem IsNearestRank.le_of_magnitudeOfRank_le {q : ℚ} {rank other : Nat}
    (h : IsNearestRank q rank) (hother : magnitudeOfRank other ≤ q) : other ≤ rank := by
  by_contra hlt
  exact absurd (h.le other) (not_le.2 (abs_lt_abs_of_lt_rank hother (not_le.1 hlt)))

/-- Nor does it go above one that is not below the number. -/
theorem IsNearestRank.le_of_le_magnitudeOfRank {q : ℚ} {rank other : Nat}
    (h : IsNearestRank q rank) (hother : q ≤ magnitudeOfRank other) : rank ≤ other := by
  by_contra hlt
  exact absurd (h.le other) (not_le.2 (abs_lt_abs_of_rank_lt hother (not_le.1 hlt)))

variable {a b rank : Nat}

/-- A quotient is not rounded to less than its whole part. -/
theorem IsNearestRank.whole_le (ha : a ≤ 2 * binade) (h : IsNearestRank (a / b) rank) :
    ((a / b : Nat) : ℚ) ≤ magnitudeOfRank rank := by
  obtain ⟨other, hother⟩ := exists_unitsOfRank_eq ((Nat.div_le_self a b).trans ha)
  have heq : magnitudeOfRank other = (a / b : Nat) := by
    rw [magnitudeOfRank, hother, Nat.cast_mul, mul_div_cancel_right₀ _ cast_one_pos.ne']
  rw [← heq]
  exact magnitudeOfRank_strictMono.monotone
    (h.le_of_magnitudeOfRank_le (heq.le.trans Nat.cast_div_le))

/-- A quotient is not rounded up to the next whole number. -/
theorem IsNearestRank.lt_whole (hb : b ≠ 0) (ha : a ≤ 2 * binade) (hb' : b ≤ 2 * binade)
    (h : IsNearestRank (a / b) rank) : magnitudeOfRank rank < (a / b + 1 : Nat) := by
  have hcast : (0 : ℚ) < b := Nat.cast_pos.2 (Nat.pos_of_ne_zero hb)
  have hpos : (0 : ℚ) < 1 / b := one_div_pos.2 hcast
  have hone : (1 : ℚ) / one ≤ 1 / b :=
    one_div_le_one_div_of_le hcast (Nat.cast_le.2 (hb'.trans two_mul_binade_le_one))
  have hquotient : (a : ℚ) / b ≤ 1 / b * 2 * binade := by
    have ha' : (a : ℚ) ≤ 2 * binade := by
      rw [← Nat.cast_two, ← Nat.cast_mul]
      exact Nat.cast_le.2 ha
    rw [← mul_one_div, mul_comm, mul_assoc]
    exact mul_le_mul_of_nonneg_left ha' hpos.le
  -- A quotient below a whole number is below it by a part of the divisor at least.
  have hwhole : (a : ℚ) / b + 1 / b ≤ (a / b + 1 : Nat) := by
    rw [← add_div, div_le_iff₀ hcast, ← Nat.cast_succ, ← Nat.cast_mul, Nat.cast_le, Nat.mul_comm]
    exact Nat.lt_mul_div_succ a (Nat.pos_of_ne_zero hb)
  by_contra hge
  rw [not_lt] at hge
  obtain - | r := rank
  · have hzero : magnitudeOfRank 0 = 0 := by
      rw [magnitudeOfRank, unitsOfRank_zero, Nat.cast_zero, zero_div]
    have hnonneg : (0 : ℚ) ≤ a / b := div_nonneg (Nat.cast_nonneg a) (Nat.cast_nonneg b)
    linarith
  -- The magnitude below is no nearer, so the step between the two is at least twice as long.
  have hlow : magnitudeOfRank r ≤ a / b := by
    by_contra hlt
    exact absurd (h.le_of_le_magnitudeOfRank (not_le.1 hlt).le) (Nat.not_succ_le_self r)
  have hnear := h.le r
  rw [abs_of_nonneg (by linarith), abs_of_nonpos (by linarith)] at hnear
  rcases step_mul_le r with hstep | hstep
  · linarith
  · have hlong : 1 / b * 2 * binade ≤ (magnitudeOfRank (r + 1) - magnitudeOfRank r) * binade :=
      mul_le_mul_of_nonneg_right (by linarith) (Nat.cast_nonneg binade)
    have hreach : (a : ℚ) / b ≤ magnitudeOfRank r := hquotient.trans (hlong.trans hstep)
    linarith

/-- The whole part of a quotient is not changed by rounding it. -/
theorem IsNearestRank.div_one (hb : b ≠ 0) (ha : a ≤ 2 * binade) (hb' : b ≤ 2 * binade)
    (h : IsNearestRank (a / b) rank) : unitsOfRank rank / one = a / b :=
  Nat.div_eq_of_lt_le (le_magnitudeOfRank_iff.1 (h.whole_le ha))
    (magnitudeOfRank_lt_iff.1 (h.lt_whole hb ha hb'))

/-- Magnitudes below twice the largest exact whole number are not too large for the format. -/
theorem lt_magnitudeCount {n : Nat} (hn : n ≤ 4 * binade) (h : magnitudeOfRank rank < n) :
    rank < magnitudeCount := by
  refine magnitudeOfRank_strictMono.lt_iff_lt.1 (h.trans_le (le_magnitudeOfRank_iff.2 ?_))
  calc n * one
      ≤ binade * 2 ^ 2 * one := Nat.mul_le_mul_right _ (by rwa [Nat.mul_comm] at hn)
    _ = binade * 2 ^ (2 + unitPlaces) := by rw [Nat.mul_assoc, ← Nat.pow_add]
    _ ≤ binade * 2 ^ 2046 := Nat.mul_le_mul_left _ (Nat.pow_le_pow_right Nat.two_pos (by decide))
    _ = unitsOfRank magnitudeCount :=
        (unitsOfRank_stretch (k := 2046) (.inr (Nat.le_refl _)) (by decide)).symm

/-- The rounded quotient has the whole part of the quotient. -/
theorem truncate_ofRank (low high : Int) (negative : Bool) (hb : b ≠ 0) (ha : a ≤ 2 * binade)
    (hb' : b ≤ 2 * binade) (h : IsNearestRank (a / b) rank) :
    (ofRank negative rank).truncate low high =
      max low (min high (if negative then -((a / b : Nat) : Int) else (a / b : Nat))) := by
  have hn : a / b + 1 ≤ 4 * binade := by
    have := Nat.div_le_self a b
    omega
  rw [ofRank, dif_pos (lt_magnitudeCount hn (h.lt_whole hb ha hb')), truncate, h.div_one hb ha hb']

/-! ### Whole numbers and their quotients -/

/-- The whole numbers up to twice the binade are rounded to themselves. -/
theorem exists_ofQuotient_eq {n : Nat} (h : n ≤ 2 * binade) :
    ∃ rank : Fin magnitudeCount, unitsOfRank rank = n * one ∧
      ∀ negative, ofQuotient negative (n * one) 1 = finite negative rank := by
  obtain ⟨rank, hrank⟩ := exists_unitsOfRank_eq h
  have hlt : rank < magnitudeCount := by
    have hn : n + 1 ≤ 4 * binade := by
      have : 0 < binade := Nat.two_pow_pos 52
      omega
    refine lt_magnitudeCount hn (magnitudeOfRank_lt_iff.2 ?_)
    rw [hrank]
    exact (Nat.mul_lt_mul_right (Nat.two_pow_pos _)).2 (Nat.lt_succ_self n)
  refine ⟨⟨rank, hlt⟩, hrank, fun negative ↦ ?_⟩
  rw [ofQuotient, ← hrank, rankOfQuotient_unitsOfRank, ofRank, dif_pos hlt]

/-- A number is a whole number. Zero is the positive one. -/
def IsInteger (n : Int) (x : Binary64) : Prop :=
  ∃ rank : Fin magnitudeCount, unitsOfRank rank = n.natAbs * one ∧ x = finite (n < 0) rank

theorem IsInteger.eq_zero {x : Binary64} (h : IsInteger 0 x) : x = zero false := by
  obtain ⟨⟨rank, hlt⟩, hrank, rfl⟩ := h
  have hzero : rank = 0 := by
    refine magnitudeOfRank_strictMono.injective ?_
    rw [magnitudeOfRank, magnitudeOfRank, unitsOfRank_zero, hrank, Int.natAbs_zero, Nat.zero_mul]
  subst hzero
  rfl

/-- Every integer up to two to the power 53 is a number of the format. -/
theorem isInteger_ofInt {n : Int} (h : n.natAbs ≤ 2 * binade) : IsInteger n (ofInt n) := by
  obtain ⟨rank, hrank, heq⟩ := exists_ofQuotient_eq h
  exact ⟨rank, hrank, heq _⟩

theorem ne_zero_of_unitsOfRank (h : unitsOfRank rank = b * one) (hb : b ≠ 0) : rank ≠ 0 := by
  rintro rfl
  rw [unitsOfRank_zero] at h
  exact absurd h.symm (Nat.mul_ne_zero hb (Nat.ne_of_gt (Nat.two_pow_pos _)))

/-- The quotient of two whole numbers is rounded once. -/
theorem exists_div_eq {i j : Fin magnitudeCount} (s t : Bool) (hi : unitsOfRank i = a * one)
    (hj : unitsOfRank j = b * one) (hb : b ≠ 0) :
    ∃ rank, IsNearestRank (a / b) rank ∧ finite s i / finite t j = ofRank (s ^^ t) rank := by
  have hone := cast_one_pos.ne'
  have hpos : 0 < b * one := Nat.mul_pos (Nat.pos_of_ne_zero hb) (Nat.two_pow_pos _)
  have hnearest := isNearestRank_rankOfQuotient (a * one * one) hpos
  rw [Nat.cast_mul, Nat.cast_mul, Nat.cast_mul, mul_div_mul_right _ _ hone,
    mul_div_mul_right _ _ hone] at hnearest
  refine ⟨_, hnearest, ?_⟩
  show div (finite s i) (finite t j) = _
  rw [div, if_neg (ne_zero_of_unitsOfRank hj hb), hi, hj]
  rfl

/-- The whole quotient of two whole numbers is exact, but for what is outside of 32 bits. -/
theorem exists_apply_wholeQuotient {i j : Fin magnitudeCount} (s t : Bool)
    (hi : unitsOfRank i = a * one) (hj : unitsOfRank j = b * one) (hb : b ≠ 0)
    (ha : a ≤ 2 * binade) (hb' : b ≤ 2 * binade) :
    IsRounded (s ^^ t) (a / b) (finite s i / finite t j) ∧
      ∃ z, Operator.wholeQuotient.apply (finite s i) (finite t j) = .ok z ∧
        IsInteger (max (-2147483648) (min 2147483647
          (if s ^^ t then -((a / b : Nat) : Int) else (a / b : Nat)))) z := by
  obtain ⟨rank, hnearest, hdiv⟩ := exists_div_eq s t hi hj hb
  refine ⟨⟨rank, hnearest, hdiv⟩, _, ?_, isInteger_ofInt ?_⟩
  · rw [Operator.apply, isZero, decide_eq_false (ne_zero_of_unitsOfRank hj hb), Bool.and_false,
      Operator.compute, hdiv, truncate_ofRank _ _ _ hb ha hb' hnearest]
    rfl
  · calc _ ≤ 2147483648 := by omega
      _ ≤ 2 * binade := by decide

/-- A whole number is read exactly. -/
theorem exists_toBinary64_eq {n : Nat} (h : n ≤ 2 * binade) (negative : Bool) :
    ∃ rank : Fin magnitudeCount, unitsOfRank rank = n * one ∧
      Decimal.toBinary64 ⟨n, 0⟩ negative = finite negative rank := by
  obtain ⟨rank, hrank, heq⟩ := exists_ofQuotient_eq h
  refine ⟨rank, hrank, (Decimal.toBinary64_eq_ofRank _ negative).trans ?_⟩
  rw [← heq negative, ofQuotient, decimalRank, decimalNum, decimalDen]
  simp only [Int.toNat_zero, Int.neg_zero, Nat.pow_zero, Nat.mul_one]

end Binary64

open Binary64

/-! ### Texts of whole quotients -/

namespace Numeral

/-- The whole number that digits stand for, after a minus sign or without one. -/
def signedValue (negative : Bool) (ds : List Char) : Int :=
  if negative then -(value ds : Int) else value ds

theorem tdiv_signedValue (s t : Bool) (ds es : List Char) :
    (signedValue s ds).tdiv (signedValue t es) =
      if s ^^ t then -((value ds / value es : Nat) : Int) else (value ds / value es : Nat) := by
  cases s <;> cases t <;> simp [signedValue, Int.neg_tdiv, Int.tdiv_neg]

end Numeral

namespace Chain.OperandText

variable {ds : List Char}

/-- The text of an integer. -/
def ofDigits (negative : Bool) (hds : Numeral.IsDigits ds) : OperandText :=
  ⟨Numeral.signed negative ds, Operand.isOperand_signed negative (.whole hds)⟩

theorem value_ofDigits (negative : Bool) (hds : Numeral.IsDigits ds) :
    (ofDigits negative hds).value = Decimal.toBinary64 ⟨Numeral.value ds, 0⟩ negative :=
  Option.some.inj
    ((ofDigits negative hds).read?_eq.symm.trans (Numeral.read?_signed_digits negative hds))

end Chain.OperandText

/-- **Whole quotients are exact.** The text of a whole quotient of two integers up to `2 ^ 53`
evaluates to the quotient cut toward zero and brought into the range of 32 bits, and to the positive
zero if that is zero, even though the quotient of the two numbers is rounded before it is cut. With
a zero for the divisor, of either sign and with any number of digits, it is a division by zero, and
then the dividend may be of any size. -/
theorem evaluate_wholeQuotient (s t : Bool) {ds es : List Char} (hds : Numeral.IsDigits ds)
    (hes : Numeral.IsDigits es) :
    (Numeral.value es = 0 →
      evaluate (String.ofList (Numeral.signed s ds ++ ['/', '/'] ++ Numeral.signed t es)) =
        .error .divisionByZero) ∧
    (Numeral.value es ≠ 0 → Numeral.value ds ≤ 2 ^ 53 → Numeral.value es ≤ 2 ^ 53 →
      ∃ x y z, Numeral.read? (Numeral.signed s ds) = some x ∧
        Numeral.read? (Numeral.signed t es) = some y ∧
        IsRounded (s ^^ t) (Numeral.value ds / Numeral.value es) (x / y) ∧
        evaluate (String.ofList (Numeral.signed s ds ++ ['/', '/'] ++ Numeral.signed t es)) =
          .ok z ∧
        IsInteger (max (-2 ^ 31)
          (min (2 ^ 31 - 1) ((Numeral.signedValue s ds).tdiv (Numeral.signedValue t es)))) z ∧
        ((Numeral.signedValue s ds).tdiv (Numeral.signedValue t es) = 0 → z = .zero false)) := by
  have heval : evaluate (String.ofList
      (Numeral.signed s ds ++ ['/', '/'] ++ Numeral.signed t es)) =
        Operator.wholeQuotient.apply (Decimal.toBinary64 ⟨Numeral.value ds, 0⟩ s)
          (Decimal.toBinary64 ⟨Numeral.value es, 0⟩ t) := by
    rw [← Chain.OperandText.value_ofDigits s hds, ← Chain.OperandText.value_ofDigits t hes,
      ← Chain.evaluate_link, List.append_assoc]
    rfl
  rw [heval]
  refine ⟨fun hzero ↦ ?_, fun hne ha hb ↦ ?_⟩
  · rw [hzero]
    exact Operator.apply_eq_error_iff.2 ⟨rfl, rfl, rfl⟩
  · -- both integers are exact in the format, so the quotient that is rounded is the true one
    obtain ⟨i, hi, hx⟩ := exists_toBinary64_eq (n := Numeral.value ds) ha s
    obtain ⟨j, hj, hy⟩ := exists_toBinary64_eq (n := Numeral.value es) hb t
    obtain ⟨hrounded, z, hz, hinteger⟩ := exists_apply_wholeQuotient s t hi hj hne ha hb
    rw [← Numeral.tdiv_signedValue] at hinteger
    rw [hx, hy]
    refine ⟨_, _, z, (Numeral.read?_signed_digits s hds).trans (congrArg some hx),
      (Numeral.read?_signed_digits t hes).trans (congrArg some hy), hrounded, hz, hinteger,
      fun hzero ↦ ?_⟩
    rw [hzero] at hinteger
    exact hinteger.eq_zero

/-- Just below `2 ^ 31`, where the quotient stays what it is with either sign; and a zero of two
digits with a sign. -/
theorem evaluate_wholeQuotient_at_ends :
    (∃ z, evaluate "-9007199254740991//4194304" = .ok z ∧ IsInteger (-2147483647) z) ∧
      evaluate "5//-00" = .error .divisionByZero := by
  have hds : Numeral.IsDigits "9007199254740991".toList :=
    ⟨by decide, List.all_eq_true.1 (by decide)⟩
  have hes : Numeral.IsDigits "4194304".toList := ⟨by decide, List.all_eq_true.1 (by decide)⟩
  have hzeros : Numeral.IsDigits "00".toList := ⟨by decide, List.all_eq_true.1 (by decide)⟩
  obtain ⟨-, hexact⟩ := evaluate_wholeQuotient true false hds hes
  obtain ⟨-, -, z, -, -, -, hz, hinteger, -⟩ :=
    hexact (by decide +kernel) (by decide +kernel) (by decide +kernel)
  obtain ⟨hdivision, -⟩ :=
    evaluate_wholeQuotient false true (Numeral.isDigits_singleton (d := '5') (by decide)) hzeros
  exact ⟨⟨z, hz, hinteger⟩, hdivision (by decide +kernel)⟩

end TextCalculator
