import TextCalculator.Proofs.Irreducible

/-!
# Typing a written number back in

A written number is irreducible, so evaluating it is reading it, and it is read back as itself.

What "itself" means is said in terms of encodings. Two patterns of bits are taken for the same
number only if both encode no number at all: every other pattern is got back from the number that it
stands for (`toBits_ofBits`), the two zeros, the subnormal numbers and the infinite numbers
included.
-/

namespace TextCalculator

namespace Binary64

/-! ### Encodings -/

/-- The patterns of bits that encode no number: the bits of the exponent are all ones, and those of
the fraction are not all zero. -/
def EncodesNan (bits : UInt64) : Prop :=
  bits.toNat / binade % 2048 = 2047 ∧ bits.toNat % binade ≠ 0

theorem binade_eq : binade = 4503599627370496 := rfl

theorem signBit_eq : signBit = 9223372036854775808 := rfl

/-- A pattern encodes no number exactly if it is above that of infinity, the sign aside. -/
theorem encodesNan_iff {bits : UInt64} :
    EncodesNan bits ↔ magnitudeCount < bits.toNat % signBit := by
  rw [EncodesNan, magnitudeCount, binade_eq, signBit_eq]
  omega

/-- The pattern is made up of its sign bit and its rank. -/
theorem encode_sign_rank (bits : UInt64) :
    toBits.encode (decide (signBit ≤ bits.toNat)) (bits.toNat % signBit) = bits := by
  have hlt := bits.toNat_lt
  rw [toBits.encode, ← UInt64.toNat_inj, UInt64.toNat_ofNat', signBit_eq]
  by_cases hsign : 9223372036854775808 ≤ bits.toNat
  · simp only [hsign, decide_true, Bool.toNat_true]
    omega
  · simp only [hsign, decide_false, Bool.toNat_false]
    omega

/-- Such a pattern is taken for what is not a number, whatever its sign and its fraction. -/
theorem ofBits_of_encodesNan {bits : UInt64} (h : EncodesNan bits) : ofBits bits = nan :=
  if_neg (Nat.not_le_of_lt (encodesNan_iff.1 h))

/-- Any other pattern is the sign and the rank of its number. -/
theorem ofBits_of_not_encodesNan {bits : UInt64} (h : ¬EncodesNan bits) :
    ofBits bits = ofRank (decide (signBit ≤ bits.toNat)) (bits.toNat % signBit) :=
  if_pos (Nat.not_lt.1 (mt encodesNan_iff.2 h))

/-- A pattern of bits that encodes a number is the encoding of that number. -/
theorem toBits_ofBits {bits : UInt64} (h : ¬EncodesNan bits) : (ofBits bits).toBits = bits := by
  rw [ofBits_of_not_encodesNan h, ofRank]
  rw [encodesNan_iff, Nat.not_lt] at h
  split
  · exact encode_sign_rank bits
  · next hrank =>
    have hinfinite : magnitudeCount = bits.toNat % signBit := by omega
    rw [toBits, hinfinite]
    exact encode_sign_rank bits

end Binary64

/-! ### Evaluating a written number -/

/-- **A written number can be typed back in.** Whatever pattern of bits a number has, evaluating its
written form takes no round and gives a number of the same pattern, or `nan` if the pattern encodes
no number. -/
theorem evaluate_render (bits : UInt64) :
    Evaluation.ofExpression (Binary64.ofBits bits).render =
      ⟨[], .normal (Numeral.write (.ofBits bits))⟩ ∧
    ∃ x, evaluate (Binary64.ofBits bits).render = .ok x ∧
      (Binary64.EncodesNan bits ∧ x = .nan ∨ ¬Binary64.EncodesNan bits ∧ x.toBits = bits) := by
  have hround := (isIrreducible_render (.ofBits bits)).ofExpression_eq
  rw [toList_render] at hround
  refine ⟨hround, .ofBits bits, evaluate_written _, ?_⟩
  by_cases hnan : Binary64.EncodesNan bits
  · exact .inl ⟨hnan, Binary64.ofBits_of_encodesNan hnan⟩
  · exact .inr ⟨hnan, Binary64.toBits_ofBits hnan⟩

-- The least negative number, in scientific notation, and the negative zero.
example : evaluate "-5.0E-324" = .ok (.ofBits 0x8000000000000001) ∧
    evaluate "-0.0" = .ok (.ofBits 0x8000000000000000) := by decide +kernel

end TextCalculator
