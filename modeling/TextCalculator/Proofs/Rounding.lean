import TextCalculator.Decimal.Basic

/-!
# What rounding depends on

Rounding a quotient depends on its value only (`rankOfQuotient_eq_of_mul_eq`), and a magnitude of
the format is its own rounding (`rankOfQuotient_unitsOfRank`). Of the two magnitudes around a
quotient the nearer one is taken (`exists_around_rankOfQuotient`), because between two powers of two
the steps have equal lengths (`unitsOfRank_stretch`).

For decimals this has to be argued, because `Binary64.ofDecimal` answers very small and very large
values before it builds a power of ten. Both answers are what rounding gives
(`ofDecimal_eq_ofRank`), so a decimal may be written with more zeros at the end of its digits
(`decimalRank_shift`).
-/

namespace TextCalculator

-- Powers of whole numbers are the built-in ones, also where a more general power is in scope.
attribute [local instance (2000)] instPowNat

namespace Binary64

/-! ### Quotients -/

/-- Rounding a quotient does not depend on how it is written. -/
theorem roundToEven_mul_right (num den : Nat) {k : Nat} (hk : 0 < k) :
    roundToEven (num * k) (den * k) = roundToEven num den := by
  have hdouble : 2 * (num % den * k) = 2 * (num % den) * k := by rw [Nat.mul_assoc]
  simp only [roundToEven, Nat.mul_div_mul_right num den hk, Nat.mul_mod_mul_right, hdouble,
    Nat.mul_lt_mul_right hk]

theorem roundToEven_mul_self (n : Nat) {den : Nat} (hden : 0 < den) :
    roundToEven (n * den) den = n := by
  simp [roundToEven, Nat.mul_div_cancel n hden, hden]

/-- Of the whole numbers around a quotient the nearer one is taken. -/
theorem roundToEven_nearer (num den : Nat) :
    roundToEven num den = num / den ∧ 2 * (num % den) ≤ den ∨
      roundToEven num den = num / den + 1 ∧ den ≤ 2 * (num % den) := by
  rw [roundToEven]
  split
  · exact .inl ⟨rfl, by omega⟩
  · split
    · exact .inr ⟨rfl, by omega⟩
    · rcases Nat.mod_two_eq_zero_or_one (num / den) with hparity | hparity
      · exact .inl ⟨by rw [hparity, Nat.add_zero], by omega⟩
      · exact .inr ⟨by rw [hparity], by omega⟩

/-- Halfway between two numbers the even one is taken. -/
theorem roundToEven_mod_two {num den : Nat} (h : 2 * (num % den) = den) :
    roundToEven num den % 2 = 0 := by
  simp only [roundToEven, h, Nat.lt_irrefl, if_false]
  omega

theorem rankOfQuotient_mul_right (num den : Nat) {k : Nat} (hk : 0 < k) :
    rankOfQuotient (num * k) (den * k) = rankOfQuotient num den := by
  simp only [rankOfQuotient, Nat.mul_div_mul_right num den hk, Nat.mul_right_comm den k,
    roundToEven_mul_right _ _ hk]

/-- Equal quotients are rounded alike. -/
theorem rankOfQuotient_eq_of_mul_eq {a b c d : Nat} (hb : 0 < b) (hd : 0 < d)
    (h : a * d = c * b) : rankOfQuotient a b = rankOfQuotient c d := by
  calc rankOfQuotient a b
      = rankOfQuotient (a * d) (b * d) := (rankOfQuotient_mul_right a b hd).symm
    _ = rankOfQuotient (c * b) (d * b) := by rw [h, Nat.mul_comm b d]
    _ = rankOfQuotient c d := rankOfQuotient_mul_right c d hb

/-- A quotient below one half is rounded to zero. -/
theorem rankOfQuotient_eq_zero {num den : Nat} (h : 2 * num < den) :
    rankOfQuotient num den = 0 := by
  have hlt : num < den := by omega
  simp [rankOfQuotient, roundToEven, Nat.div_eq_of_lt hlt, Nat.mod_eq_of_lt hlt, h]

/-- A quotient from `2 ^ (52 + k)` on has at least the rank at which the `k`-th doubling begins. -/
theorem mul_binade_le_rankOfQuotient {num den k : Nat} (h : 2 ^ (52 + k) ≤ num / den) :
    k * binade ≤ rankOfQuotient num den := by
  have hne : num / den ≠ 0 := by
    intro hzero
    rw [hzero] at h
    exact absurd h (Nat.not_le_of_lt (Nat.two_pow_pos _))
  have hlog : 52 + k ≤ (num / den).log2 := (Nat.le_log2 hne).2 h
  have hmul : k * binade ≤ ((num / den).log2 - 52) * binade := Nat.mul_le_mul_right _ (by omega)
  exact Nat.le_trans hmul (Nat.le_add_right _ _)

/-! ### Magnitudes of the format -/

/-- A rank lies in a stretch of magnitudes, a number of steps from where the stretch begins. -/
theorem exists_stretch (rank : Nat) :
    ∃ k m, rank = k * binade + m ∧ (k = 0 ∨ binade ≤ m) ∧ m < 2 * binade := by
  have hsplit := Nat.div_add_mod' rank binade
  have hmod : rank % binade < binade := Nat.mod_lt rank (Nat.two_pow_pos 52)
  generalize rank % binade = rest at hsplit hmod
  cases hq : rank / binade with
  | zero =>
    rw [hq, Nat.zero_mul, Nat.zero_add] at hsplit
    exact ⟨0, rank, by omega, .inl rfl, by omega⟩
  | succ q =>
    rw [hq, Nat.succ_mul, Nat.add_assoc] at hsplit
    exact ⟨q, binade + rest, hsplit.symm, .inr (Nat.le_add_right _ _), by omega⟩

/-- The steps of a stretch have equal lengths, also the one that leads to the next stretch. -/
theorem unitsOfRank_stretch {k m : Nat} (hlow : k = 0 ∨ binade ≤ m) (hhigh : m ≤ 2 * binade) :
    unitsOfRank (k * binade + m) = m * 2 ^ k := by
  have hbinade : 0 < binade := Nat.two_pow_pos 52
  have hdiv : (k * binade + m) / binade = k + m / binade := by
    rw [Nat.add_comm, Nat.add_mul_div_right _ _ hbinade, Nat.add_comm]
  have hin {j : Nat} (hj : j = k) : (k * binade + m - j * binade) * 2 ^ j = m * 2 ^ k := by
    rw [hj, Nat.add_sub_cancel_left]
  rw [unitsOfRank, hdiv]
  rcases Nat.lt_or_ge m binade with hm | hm
  · have hzero : k = 0 := hlow.resolve_right (Nat.not_le_of_lt hm)
    exact hin (by rw [Nat.div_eq_of_lt hm, hzero])
  · rcases Nat.lt_or_eq_of_le hhigh with hm' | rfl
    · have hone : m / binade = 1 := Nat.div_eq_of_lt_le (by rwa [Nat.one_mul]) hm'
      exact hin (by rw [hone, Nat.add_sub_cancel])
    · -- the stretch ends where the next one begins, with steps of twice the length
      have htwo : k + 2 * binade / binade - 1 = k + 1 := by
        rw [Nat.mul_div_cancel 2 hbinade, Nat.add_sub_assoc (by decide)]
      have hrest : k * binade + 2 * binade - (k + 1) * binade = binade := by
        rw [Nat.two_mul, ← Nat.add_assoc, ← Nat.succ_mul, Nat.add_sub_cancel_left]
      rw [htwo, hrest, Nat.pow_succ', Nat.mul_left_comm, Nat.mul_assoc]

theorem unitsOfRank_zero : unitsOfRank 0 = 0 :=
  unitsOfRank_stretch (k := 0) (.inl rfl) (Nat.zero_le _)

/-- Magnitudes grow with their ranks. -/
theorem unitsOfRank_lt_succ (rank : Nat) : unitsOfRank rank < unitsOfRank (rank + 1) := by
  obtain ⟨k, m, rfl, hlow, hhigh⟩ := exists_stretch rank
  rw [Nat.add_assoc, unitsOfRank_stretch hlow (Nat.le_of_lt hhigh),
    unitsOfRank_stretch (hlow.imp_right Nat.le_succ_of_le) hhigh]
  exact (Nat.mul_lt_mul_right (Nat.two_pow_pos k)).2 (Nat.lt_succ_self m)

theorem log2_stretch {k m : Nat} (hlow : k = 0 ∨ binade ≤ m) (hhigh : m < 2 * binade) :
    (m * 2 ^ k).log2 - 52 = k := by
  have hpow : 0 < 2 ^ k := Nat.two_pow_pos k
  by_cases hzero : m * 2 ^ k = 0
  · obtain rfl : m = 0 := (Nat.mul_eq_zero.1 hzero).resolve_right (Nat.ne_of_gt hpow)
    rw [hzero, hlow.resolve_right (Nat.not_le_of_lt (Nat.two_pow_pos 52))]
    rfl
  · have hlt : (m * 2 ^ k).log2 < 53 + k := by
      rw [Nat.log2_lt hzero, Nat.pow_add]
      exact (Nat.mul_lt_mul_right hpow).2 (by rwa [Nat.pow_succ'])
    have hge (hm : binade ≤ m) : 52 + k ≤ (m * 2 ^ k).log2 := by
      rw [Nat.le_log2 hzero, Nat.pow_add]
      exact Nat.mul_le_mul_right _ hm
    omega

/-- The steps below a quotient are those of a stretch. -/
theorem stretch_of_quotient (num den : Nat) {k : Nat} (hk : (num / den).log2 - 52 = k) :
    (k = 0 ∨ binade ≤ num / (den * 2 ^ k)) ∧ num / (den * 2 ^ k) < 2 * binade := by
  have hpow : 0 < 2 ^ k := Nat.two_pow_pos k
  rw [← Nat.div_div_eq_div_mul]
  refine ⟨Decidable.or_iff_not_imp_left.2 fun hne ↦ ?_, ?_⟩
  · have hquotient : num / den ≠ 0 := by
      intro hzero
      rw [hzero] at hk
      exact hne hk.symm
    rw [Nat.le_div_iff_mul_le hpow, ← Nat.pow_add, ← Nat.le_log2 hquotient]
    omega
  · rw [Nat.div_lt_iff_lt_mul hpow, ← Nat.pow_succ', ← Nat.pow_add]
    exact Nat.lt_of_lt_of_le Nat.lt_log2_self (Nat.pow_le_pow_right (by decide) (by omega))

theorem mul_binade_add_mod_two (k m : Nat) : (k * binade + m) % 2 = m % 2 := by
  unfold binade
  omega

/-- A quotient lies between two magnitudes of consecutive ranks. Its rank is that of the nearer one,
and the even one if they are equally near. -/
theorem exists_around_rankOfQuotient (num : Nat) {den : Nat} (hden : 0 < den) :
    ∃ r below above, unitsOfRank r * den + below = num ∧ num + above = unitsOfRank (r + 1) * den ∧
      (rankOfQuotient num den = r ∧ below ≤ above ∨
        rankOfQuotient num den = r + 1 ∧ above ≤ below) ∧
      (below = above → rankOfQuotient num den % 2 = 0) := by
  obtain ⟨k, hk⟩ : ∃ k, (num / den).log2 - 52 = k := ⟨_, rfl⟩
  obtain ⟨hlow, hhigh⟩ := stretch_of_quotient num den hk
  have hrest : num % (den * 2 ^ k) < den * 2 ^ k :=
    Nat.mod_lt num (Nat.mul_pos hden (Nat.two_pow_pos k))
  have hsplit := Nat.div_add_mod' num (den * 2 ^ k)
  have hnearer := roundToEven_nearer num (den * 2 ^ k)
  have heven : 2 * (num % (den * 2 ^ k)) = den * 2 ^ k →
      roundToEven num (den * 2 ^ k) % 2 = 0 := roundToEven_mod_two
  -- the quotient is `steps` spacings of its stretch and a rest; with both as plain variables,
  -- what is left is arithmetic
  rw [rankOfQuotient, hk, mul_binade_add_mod_two]
  generalize num / (den * 2 ^ k) = steps at *
  generalize num % (den * 2 ^ k) = rest at *
  refine ⟨k * binade + steps, rest, den * 2 ^ k - rest, ?_, ?_, ?_, fun h ↦ heven (by omega)⟩
  · rw [unitsOfRank_stretch hlow (Nat.le_of_lt hhigh), ← hsplit, Nat.mul_assoc, Nat.mul_comm den]
  · rw [Nat.add_assoc, unitsOfRank_stretch (hlow.imp_right Nat.le_succ_of_le) hhigh, Nat.mul_assoc,
      Nat.mul_comm _ den, Nat.succ_mul, ← hsplit]
    omega
  · rcases hnearer with ⟨hrounded, hle⟩ | ⟨hrounded, hle⟩
    · exact .inl ⟨by rw [hrounded], by omega⟩
    · exact .inr ⟨by rw [hrounded, Nat.add_assoc], by omega⟩

/-- A magnitude of the format is its own rounding. -/
theorem rankOfQuotient_unitsOfRank (rank : Nat) : rankOfQuotient (unitsOfRank rank) 1 = rank := by
  obtain ⟨k, m, rfl, hlow, hhigh⟩ := exists_stretch rank
  simp only [rankOfQuotient, unitsOfRank_stretch hlow (Nat.le_of_lt hhigh), Nat.div_one,
    log2_stretch hlow hhigh, Nat.one_mul, roundToEven_mul_self m (Nat.two_pow_pos k)]

/-! ### Decimals -/

/-- The quotient of a decimal in units: the numerator. -/
abbrev decimalNum (digits : Nat) (exponent : Int) : Nat := digits * 10 ^ exponent.toNat * one

/-- The quotient of a decimal in units: the denominator. -/
abbrev decimalDen (exponent : Int) : Nat := 10 ^ (-exponent).toNat

/-- The rank of the magnitude nearest to a decimal. -/
def decimalRank (digits : Nat) (exponent : Int) : Nat :=
  rankOfQuotient (decimalNum digits exponent) (decimalDen exponent)

/-- Three binary places are less than a decimal one. -/
theorem two_pow_le_ten_pow {a m : Nat} (h : a ≤ 3 * m) : 2 ^ a ≤ 10 ^ m := by
  calc 2 ^ a
      ≤ 2 ^ (3 * m) := Nat.pow_le_pow_right (by decide) h
    _ = 8 ^ m := Nat.pow_mul 2 3 m
    _ ≤ 10 ^ m := Nat.pow_le_pow_left (by decide) m

/-- Above this bound of the exponent a decimal is less than half of the least magnitude. -/
theorem two_mul_mul_two_pow_lt {digits places m : Nat} (h : places + 2 + digits.log2 ≤ 3 * m) :
    2 * (digits * 2 ^ places) < 10 ^ m := by
  have hdigits : digits * 2 ^ (places + 1) < 2 ^ (digits.log2 + 1) * 2 ^ (places + 1) :=
    (Nat.mul_lt_mul_right (Nat.two_pow_pos _)).2 Nat.lt_log2_self
  calc 2 * (digits * 2 ^ places)
      = digits * 2 ^ (places + 1) := by rw [Nat.mul_left_comm, Nat.pow_succ']
    _ < 2 ^ (digits.log2 + 1 + (places + 1)) := by rwa [Nat.pow_add 2 (digits.log2 + 1)]
    _ ≤ 10 ^ m := two_pow_le_ten_pow (by omega)

theorem two_pow_le_mul_ten_pow {digits places m j k : Nat} (hdigits : digits ≠ 0)
    (h : j + k ≤ 3 * m + places) : 2 ^ (j + k) ≤ digits * 10 ^ m * 2 ^ places := by
  calc 2 ^ (j + k)
      ≤ 2 ^ (3 * m) * 2 ^ places := by
        rw [← Nat.pow_add]
        exact Nat.pow_le_pow_right (by decide) h
    _ ≤ 10 ^ m * 2 ^ places := Nat.mul_le_mul_right _ (two_pow_le_ten_pow (Nat.le_refl _))
    _ ≤ digits * 10 ^ m * 2 ^ places :=
        Nat.mul_le_mul_right _ (Nat.le_mul_of_pos_left _ (Nat.pos_of_ne_zero hdigits))

/-- A decimal below `10 ^ (-400)` is rounded to zero. -/
theorem decimalRank_eq_zero {digits : Nat} {exponent : Int}
    (h : digits = 0 ∨ exponent + digits.log2 < -400) : decimalRank digits exponent = 0 := by
  apply rankOfQuotient_eq_zero
  rcases h with rfl | h
  · simp only [decimalNum, Nat.zero_mul, Nat.mul_zero]
    exact Nat.pow_pos (by decide)
  · obtain ⟨m, rfl⟩ : ∃ m : Nat, exponent = -m := ⟨(-exponent).toNat, by omega⟩
    simp only [decimalNum, decimalDen, Int.toNat_neg_natCast, Nat.pow_zero, Nat.mul_one,
      Int.neg_neg, Int.toNat_natCast]
    have hplaces : unitPlaces = 1074 := rfl
    exact two_mul_mul_two_pow_lt (by omega)

/-- A decimal from `10 ^ 400` on has a rank beyond those of the format. -/
theorem magnitudeCount_le_decimalRank {digits : Nat} {exponent : Int} (hdigits : digits ≠ 0)
    (h : 400 ≤ exponent) : magnitudeCount ≤ decimalRank digits exponent := by
  obtain ⟨m, rfl⟩ := Int.eq_ofNat_of_zero_le (show 0 ≤ exponent by omega)
  have hplaces : unitPlaces = 1074 := rfl
  apply mul_binade_le_rankOfQuotient
  rw [decimalDen, Int.toNat_neg_natCast, Nat.pow_zero, Nat.div_one]
  exact two_pow_le_mul_ten_pow (j := 52) (k := 2047) hdigits (by omega)

/-- The answers for very small and very large decimals are what rounding gives. -/
theorem ofDecimal_eq_ofRank (negative : Bool) (digits : Nat) (exponent : Int) :
    ofDecimal negative digits exponent = ofRank negative (decimalRank digits exponent) := by
  rw [ofDecimal]
  split
  · next h => rw [decimalRank_eq_zero h]; rfl
  · next hsmall =>
    split
    · next hlarge =>
      have hbeyond := magnitudeCount_le_decimalRank (fun h ↦ hsmall (.inl h)) hlarge
      rw [ofRank, dif_neg (Nat.not_lt_of_le hbeyond)]
    · rfl

/-- Zeros at the end of the digits may stand in the exponent instead. -/
theorem decimalRank_shift (digits : Nat) (exponent : Int) (k : Nat) :
    decimalRank (digits * 10 ^ k) (exponent - k) = decimalRank digits exponent := by
  have hpos : ∀ e : Int, 0 < decimalDen e := fun e ↦ Nat.pow_pos (by decide)
  apply rankOfQuotient_eq_of_mul_eq (hpos _) (hpos _)
  have hexponents : k + (exponent - k).toNat + (-exponent).toNat =
      exponent.toNat + (-(exponent - k)).toNat := by omega
  calc digits * 10 ^ k * 10 ^ (exponent - k).toNat * one * 10 ^ (-exponent).toNat
      = digits * 10 ^ (k + (exponent - k).toNat + (-exponent).toNat) * one := by
        simp only [Nat.pow_add, Nat.mul_assoc, Nat.mul_comm one]
    _ = digits * 10 ^ (exponent.toNat + (-(exponent - k)).toNat) * one := by rw [hexponents]
    _ = digits * 10 ^ exponent.toNat * one * 10 ^ (-(exponent - k)).toNat := by
        simp only [Nat.pow_add, Nat.mul_assoc, Nat.mul_comm one]

end Binary64

theorem Decimal.toBinary64_eq_ofRank (d : Decimal) (negative : Bool) :
    d.toBinary64 negative = .ofRank negative (Binary64.decimalRank d.digits d.exponent) :=
  Binary64.ofDecimal_eq_ofRank negative d.digits d.exponent

end TextCalculator
