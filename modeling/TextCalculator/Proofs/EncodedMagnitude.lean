import TextCalculator.Proofs.Nearest
import TextCalculator.Proofs.ReadBack

/-!
# The magnitude that a pattern of bits encodes

A pattern of bits encodes no number, an infinite number, or a finite one. The magnitude of a finite
one is given by the bits of its exponent and those of its fraction (`Binary64.encodedMagnitude`). It
is the magnitude of the rank that the pattern has (`Binary64.encodedMagnitude_eq`).

The range of plain notation is a range of rational numbers here (`Binary64.IsPlainMagnitude`). A
thousandth is no number of the format, but no magnitude lies between it and the number that it is
rounded to, so that the two bound the same magnitudes
(`Binary64.encodedMagnitude_thousandth_le_iff`).
-/

namespace TextCalculator

-- Powers of whole numbers are the built-in ones, also where a more general power is in scope.
attribute [local instance (2000)] instPowNat

namespace Binary64

/-! ### Patterns of bits -/

instance : DecidablePred EncodesNan := fun _ ↦ inferInstanceAs (Decidable (_ ∧ _))

/-- The patterns of bits that encode an infinite number: the bits of the exponent are all ones, and
those of the fraction are all zero. -/
def EncodesInfinity (bits : UInt64) : Prop :=
  bits.toNat / binade % 2048 = 2047 ∧ bits.toNat % binade = 0

instance : DecidablePred EncodesInfinity := fun _ ↦ inferInstanceAs (Decidable (_ ∧ _))

/-- The magnitude of the finite number that a pattern of bits encodes: the fraction counts steps of
the exponent, after a leading one unless the bits of the exponent are all zero. -/
def encodedMagnitude (bits : UInt64) : ℚ :=
  let exponent := bits.toNat / binade % 2048
  let fraction := bits.toNat % binade
  if exponent = 0 then fraction * 2 ^ (-1074 : ℤ)
  else (binade + fraction : Nat) * 2 ^ ((exponent : ℤ) - 1075)

variable {bits : UInt64}

/-- A pattern encodes an infinity exactly if it is that of infinity, the sign aside. -/
theorem encodesInfinity_iff : EncodesInfinity bits ↔ bits.toNat % signBit = magnitudeCount := by
  rw [EncodesInfinity, magnitudeCount, binade_eq, signBit_eq]
  omega

/-- The rank of a pattern is the number of whole binades and the fraction. -/
theorem toNat_mod_signBit (bits : UInt64) :
    bits.toNat % signBit = bits.toNat / binade % 2048 * binade + bits.toNat % binade := by
  rw [binade_eq, signBit_eq]
  omega

theorem ofBits_of_encodesInfinity (h : EncodesInfinity bits) :
    ofBits bits = infinity (decide (signBit ≤ bits.toNat)) := by
  have hnan : ¬EncodesNan bits := fun hnan ↦ hnan.2 h.2
  rw [ofBits_of_not_encodesNan hnan, encodesInfinity_iff.1 h, ofRank,
    dif_neg (Nat.lt_irrefl magnitudeCount)]

/-- A pattern that encodes neither stands for a finite number. -/
theorem exists_ofBits_eq_finite (hnan : ¬EncodesNan bits) (hinfinity : ¬EncodesInfinity bits) :
    ∃ rank : Fin magnitudeCount, rank = bits.toNat % signBit ∧
      ofBits bits = finite (decide (signBit ≤ bits.toNat)) rank := by
  have hle := mt encodesNan_iff.2 hnan
  have hne := mt encodesInfinity_iff.2 hinfinity
  have hrank : bits.toNat % signBit < magnitudeCount := by omega
  rw [ofBits_of_not_encodesNan hnan, ofRank, dif_pos hrank]
  exact ⟨⟨_, hrank⟩, rfl, rfl⟩

/-! ### Magnitudes -/

/-- A whole number of doublings of a unit that takes some binary places. -/
theorem cast_mul_two_pow_div (m k places : Nat) :
    ((m * 2 ^ k : Nat) : ℚ) / (2 ^ places : Nat) = m * 2 ^ ((k : ℤ) - places) := by
  rw [zpow_sub₀ two_ne_zero, zpow_natCast, zpow_natCast]
  push_cast
  rw [mul_div_assoc]

/-- The encoding lists the magnitudes in their order. -/
theorem encodedMagnitude_eq (bits : UInt64) :
    encodedMagnitude bits = magnitudeOfRank (bits.toNat % signBit) := by
  have hfraction : bits.toNat % binade < binade := Nat.mod_lt _ (Nat.two_pow_pos 52)
  rw [toNat_mod_signBit, encodedMagnitude, magnitudeOfRank]
  generalize bits.toNat / binade % 2048 = exponent
  generalize bits.toNat % binade = fraction at hfraction ⊢
  cases exponent with
  | zero =>
    rw [unitsOfRank_stretch (.inl rfl) (by omega), cast_mul_two_pow_div]
    rfl
  | succ k =>
    -- the leading one is the binade that the rank of the exponent is ahead of its stretch
    have hstretch : (k + 1) * binade + fraction = k * binade + (binade + fraction) := by
      rw [Nat.succ_mul, Nat.add_assoc]
    have hexponent : ((k + 1 : Nat) : ℤ) - 1075 = k - (1074 : Nat) := by omega
    rw [hstretch, unitsOfRank_stretch (.inr (Nat.le_add_right _ _)) (by omega),
      cast_mul_two_pow_div, ← hexponent]
    exact if_neg (Nat.succ_ne_zero k)

theorem magnitudeOfRank_zero : magnitudeOfRank 0 = 0 := by
  rw [magnitudeOfRank, unitsOfRank_zero, Nat.cast_zero, zero_div]

/-- Zero, or from a thousandth up to, but not including, ten million. -/
def IsPlainMagnitude (q : ℚ) : Prop := q = 0 ∨ 1 / 1000 ≤ q ∧ q < 10 ^ 7

instance : DecidablePred IsPlainMagnitude := fun _ ↦ inferInstanceAs (Decidable (_ ∨ _))

/-- A magnitude is compared with a thousandth in whole units. -/
theorem thousandth_le_magnitudeOfRank_iff {rank : Nat} :
    1 / 1000 ≤ magnitudeOfRank rank ↔ one ≤ unitsOfRank rank * 10 ^ (3 : Nat) := by
  have hscale : (1000 : ℚ) = (10 ^ (3 : Nat) : Nat) := by norm_num
  rw [magnitudeOfRank, hscale, div_le_div_iff₀ (by norm_num) cast_one_pos, one_mul, ← Nat.cast_mul,
    Nat.cast_le]

/-- So is it found out whether a magnitude is zero or in the plain range. -/
theorem isPlainMagnitude_magnitudeOfRank_iff {rank : Nat} :
    IsPlainMagnitude (magnitudeOfRank rank) ↔ unitsOfRank rank = 0 ∨
      one ≤ unitsOfRank rank * 10 ^ (3 : Nat) ∧ unitsOfRank rank < 10 ^ (7 : Nat) * one := by
  have hzero : magnitudeOfRank rank = 0 ↔ unitsOfRank rank = 0 := by
    rw [magnitudeOfRank, div_eq_zero_iff, Nat.cast_eq_zero, or_iff_left cast_one_pos.ne']
  have hscale : (10 ^ 7 : ℚ) = (10 ^ (7 : Nat) : Nat) := by norm_num
  rw [IsPlainMagnitude, hzero, thousandth_le_magnitudeOfRank_iff, hscale, magnitudeOfRank_lt_iff]

/-- The pattern of the number that a thousandth is rounded to. -/
def thousandth : UInt64 := (Decimal.toBinary64 ⟨1, -3⟩ false).toBits

/-- The pattern of ten million. -/
def tenMillion : UInt64 := (Decimal.toBinary64 ⟨1, 7⟩ false).toBits

/-- No magnitude lies between a thousandth and the number that it is rounded to. -/
theorem encodedMagnitude_thousandth_le_iff :
    encodedMagnitude thousandth ≤ encodedMagnitude bits ↔ 1 / 1000 ≤ encodedMagnitude bits := by
  have hbits : thousandth.toNat % signBit = 4562254508917369340 := by decide +kernel
  have habove : 1 / 1000 ≤ magnitudeOfRank 4562254508917369340 :=
    thousandth_le_magnitudeOfRank_iff.2 (by decide +kernel)
  have hbelow : ¬1 / 1000 ≤ magnitudeOfRank 4562254508917369339 :=
    mt thousandth_le_magnitudeOfRank_iff.1 (by decide +kernel)
  rw [encodedMagnitude_eq, encodedMagnitude_eq, hbits]
  refine ⟨habove.trans, fun h ↦ magnitudeOfRank_strictMono.monotone ?_⟩
  by_contra hlt
  exact hbelow (h.trans (magnitudeOfRank_strictMono.monotone (by omega)))

theorem encodedMagnitude_tenMillion : encodedMagnitude tenMillion = 10 ^ 7 := by
  decide +kernel

end Binary64

end TextCalculator
