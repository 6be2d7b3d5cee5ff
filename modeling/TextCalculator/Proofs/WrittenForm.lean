import TextCalculator.Expression.Seam
import TextCalculator.Proofs.Digits
import TextCalculator.Proofs.Shortest
import TextCalculator.Text.Blank

/-!
# The shape of written numbers, and reading them back

A written magnitude is digits around a point, and perhaps an exponent (`IsMagnitude`). In either
notation its digits are those of the decimal it was written from, up to zeros at the end
(`isMagnitude_magnitude`), so every written number is read back as itself (`read?_write`).

What else is to be said of written numbers needs their shape only (`isWritten_write`).
-/

namespace TextCalculator.Numeral

-- Powers of whole numbers are the built-in ones, also where a more general power is in scope.
attribute [local instance (2000)] instPowNat

/-! ### The value of digits -/

/-- The digits of a number have it as their value. -/
theorem value_digits (n : Nat) : value (digits n) = n := Nat.ofDigitChars_ten_toDigits

/-- Each zero at the end makes the value ten times as large. -/
theorem value_append_zeros (ds : List Char) (k : Nat) :
    value (ds ++ List.replicate k '0') = value ds * 10 ^ k := by
  rw [value, Nat.ofDigitChars_append, Nat.ofDigitChars_replicate_zero, Nat.mul_comm]

/-- Zeros in front leave the value as it is. -/
theorem value_padded (count : Nat) (ds : List Char) : value (padded count ds) = value ds := by
  rw [value, padded, Nat.ofDigitChars_append, Nat.ofDigitChars_replicate_zero, Nat.mul_zero]

theorem isDigits_padded {count : Nat} {ds : List Char} (hds : IsDigits ds) :
    IsDigits (padded count ds) := by
  refine ⟨fun h ↦ hds.1 (List.append_eq_nil_iff.1 h).2, fun c hc ↦ ?_⟩
  rcases List.mem_append.1 hc with h | h
  · rw [(List.mem_replicate.1 h).2]; decide
  · exact hds.2 c h

/-! ### Shapes -/

/-- What follows the digits of a written magnitude: nothing, or an exponent. -/
inductive IsExponentPart : List Char → Int → Prop
  /-- No exponent. -/
  | none : IsExponentPart [] 0
  /-- An exponent after its mark. -/
  | mark (n : Int) : IsExponentPart ('E' :: integer n) n

/-- A written magnitude, its exponent part, and the decimal that it shows. -/
inductive IsMagnitude : List Char → List Char → Decimal → Prop
  /-- Digits on both sides of a point, and perhaps an exponent. -/
  | intro {ds es tail : List Char} {n : Int} (hds : IsDigits ds) (hes : IsDigits es)
      (htail : IsExponentPart tail n) :
      IsMagnitude (ds ++ '.' :: (es ++ tail)) tail ⟨value (ds ++ es), n - es.length⟩

/-- A decimal with more zeros at the end of its digits. -/
def withZeros (d : Decimal) (k : Nat) : Decimal := ⟨d.digits * 10 ^ k, d.exponent - k⟩

/-- Zeros at the end of the digits leave the number as it is. -/
theorem toBinary64_withZeros (d : Decimal) (k : Nat) (negative : Bool) :
    (withZeros d k).toBinary64 negative = d.toBinary64 negative := by
  rw [Decimal.toBinary64_eq_ofRank, Decimal.toBinary64_eq_ofRank, withZeros,
    Binary64.decimalRank_shift]

theorem withZeros_zero (d : Decimal) : withZeros d 0 = d := by
  rw [withZeros, Nat.pow_zero, Nat.mul_one, Int.ofNat_zero, Int.sub_zero]

/-- Digits with a point before the last `count` of them. -/
theorem isMagnitude_point {ds : List Char} {count : Nat} (hds : IsDigits ds) (hcount : 0 < count)
    (hlength : count < ds.length) :
    IsMagnitude (ds.take (ds.length - count) ++ '.' :: ds.drop (ds.length - count)) []
      ⟨value ds, -count⟩ := by
  have hwhole : IsDigits (ds.take (ds.length - count)) :=
    ⟨List.ne_nil_of_length_pos (by rw [List.length_take]; omega),
      fun c hc ↦ hds.2 c (List.mem_of_mem_take hc)⟩
  have hfraction : IsDigits (ds.drop (ds.length - count)) :=
    ⟨List.ne_nil_of_length_pos (by rw [List.length_drop]; omega),
      fun c hc ↦ hds.2 c (List.mem_of_mem_drop hc)⟩
  have hplaces : (0 : Int) - (ds.drop (ds.length - count)).length = -count := by
    rw [List.length_drop]
    omega
  have hmagnitude := IsMagnitude.intro hwhole hfraction .none
  rwa [List.take_append_drop, hplaces, List.append_nil] at hmagnitude

/-- Plain notation shows the decimal, perhaps with more zeros. -/
theorem isMagnitude_plain (d : Decimal) : ∃ k, IsMagnitude (plain d) [] (withZeros d k) := by
  rw [plain]
  split
  · next zeros hexponent =>
    have hwhole : IsDigits (digits d.digits ++ List.replicate zeros '0') := by
      refine ⟨by simp, fun c hc ↦ ?_⟩
      rcases List.mem_append.1 hc with h | h
      · exact (isDigits_digits d.digits).2 c h
      · rw [(List.mem_replicate.1 h).2]; decide
    have hshown : withZeros d (zeros + 1) =
        ⟨value (digits d.digits ++ List.replicate zeros '0' ++ ['0']), 0 - ['0'].length⟩ := by
      rw [List.append_assoc, ← List.replicate_succ', value_append_zeros, value_digits, withZeros,
        hexponent]
      congr 1
      simp only [List.length_singleton, Int.ofNat_eq_natCast]
      omega
    refine ⟨zeros + 1, ?_⟩
    rw [hshown]
    exact .intro hwhole (isDigits_singleton (by decide)) .none
  · next n hexponent =>
    have hds : IsDigits (padded (n + 2) (digits d.digits)) := isDigits_padded (isDigits_digits _)
    have hlength : n + 1 < (padded (n + 2) (digits d.digits)).length := by
      rw [padded, List.length_append, List.length_replicate]
      omega
    have hshown : withZeros d 0 =
        ⟨value (padded (n + 2) (digits d.digits)), -((n + 1 : Nat) : Int)⟩ := by
      rw [withZeros_zero, value_padded, value_digits,
        show -((n + 1 : Nat) : Int) = d.exponent from hexponent.symm]
    refine ⟨0, ?_⟩
    rw [hshown]
    exact isMagnitude_point hds (Nat.succ_pos n) hlength

/-- Scientific notation shows the decimal, perhaps with one more zero. -/
theorem isMagnitude_scientific (d : Decimal) :
    ∃ tail k, IsMagnitude (scientific .standard d) tail (withZeros d k) := by
  have hdigits := isDigits_digits d.digits
  have hvalue := value_digits d.digits
  rw [scientific]
  split
  · next hnil => exact absurd hnil hdigits.1
  · next first rest hcons =>
    rw [hcons] at hdigits hvalue
    have hfirst : IsDigits [first] := isDigits_singleton (hdigits.2 first (by simp))
    by_cases hrest : rest = []
    · subst hrest
      have hshown : withZeros d 1 =
          ⟨value ([first] ++ ['0']), d.exponent + ([] : List Char).length - ['0'].length⟩ := by
        have hzero := value_append_zeros [first] 1
        rw [hvalue] at hzero
        rw [withZeros, ← hzero]
        congr 1
        simp
      refine ⟨'E' :: integer (d.exponent + ([] : List Char).length), 1, ?_⟩
      rw [hshown]
      exact .intro hfirst (isDigits_singleton (by decide)) (.mark _)
    · have hshown : withZeros d 0 =
          ⟨value ([first] ++ rest), d.exponent + rest.length - rest.length⟩ := by
        rw [List.singleton_append, hvalue, withZeros_zero, Int.add_sub_cancel]
      have hmore : IsDigits rest := ⟨hrest, fun c hc ↦ hdigits.2 c (List.mem_cons_of_mem _ hc)⟩
      refine ⟨'E' :: integer (d.exponent + rest.length), 0, ?_⟩
      rw [hshown, if_neg hrest]
      exact .intro hfirst hmore (.mark _)

/-- What is written of a rank is a magnitude. It shows the shortest decimal of the rank, with zeros
behind where the notation needs a digit. -/
theorem isMagnitude_magnitude (rank : Nat) :
    ∃ tail k, IsMagnitude (magnitude .standard rank) tail
      (withZeros (Decimal.shortest rank) k) := by
  rw [magnitude]
  split
  · exact ⟨[], isMagnitude_plain _⟩
  · exact isMagnitude_scientific _

/-! ### Reading back -/

/-- A written integer is digits, or a minus sign and digits. -/
theorem isDigits_of_integer (n : Int) :
    ∃ ds, IsDigits ds ∧ (integer n = ds ∨ integer n = '-' :: ds) := by
  cases n with
  | ofNat n => exact ⟨digits n, isDigits_digits n, .inl rfl⟩
  | negSucc n => exact ⟨digits (n + 1), isDigits_digits _, .inr rfl⟩

/-- A written integer is read back. -/
theorem readInteger?_integer (n : Int) : readInteger? (integer n) = some n := by
  cases n with
  | ofNat n =>
    have hread : readDigits? (digits n) = some n := by
      rw [readDigits?_digits (isDigits_digits n), value_digits]
    obtain ⟨d, rest, hcons, hd⟩ := (isDigits_digits n).exists_cons
    rw [integer]
    unfold readInteger?
    split
    · next h => rw [hcons] at h; obtain ⟨rfl, -⟩ := List.cons.inj h; simp at hd
    · next h => rw [hcons] at h; obtain ⟨rfl, -⟩ := List.cons.inj h; simp at hd
    · rw [hread]; rfl
  | negSucc n =>
    rw [integer, readInteger?, readDigits?_digits (isDigits_digits _), value_digits]
    rfl

/-- A written exponent is read back. -/
theorem readExponent?_of_isExponentPart {tail : List Char} {n : Int} (h : IsExponentPart tail n) :
    readExponent? tail = some n := by
  cases h with
  | none => rfl
  | mark n => rw [readExponent?, if_pos (.inr rfl), readInteger?_integer]

namespace IsMagnitude

variable {cs tail : List Char} {d : Decimal}

/-- A written magnitude begins with a digit. -/
theorem exists_cons (h : IsMagnitude cs tail d) : ∃ c rest, cs = c :: rest ∧ c.isDigit = true := by
  obtain ⟨hds, hes, htail⟩ := h
  obtain ⟨c, rest, rfl, hc⟩ := hds.exists_cons
  exact ⟨c, _, rfl, hc⟩

theorem exists_concat (h : IsMagnitude cs tail d) :
    ∃ init c, cs = init ++ [c] ∧ c.isDigit = true := by
  obtain @⟨ds, es, _, n, hds, hes, htail⟩ := h
  cases htail with
  | none =>
    obtain ⟨init, c, rfl, hc⟩ := hes.exists_concat
    exact ⟨ds ++ '.' :: init, c, by simp, hc⟩
  | mark n =>
    obtain ⟨exponent, hexponent, h⟩ := isDigits_of_integer n
    obtain ⟨init, c, rfl, hc⟩ := hexponent.exists_concat
    rcases h with h | h
    · exact ⟨ds ++ '.' :: (es ++ 'E' :: init), c, by simp [h], hc⟩
    · exact ⟨ds ++ '.' :: (es ++ 'E' :: '-' :: init), c, by simp [h], hc⟩

/-- It has a point, so it is no integer. -/
theorem point_mem (h : IsMagnitude cs tail d) : '.' ∈ cs := by
  obtain ⟨hds, hes, htail⟩ := h
  simp

/-- A written magnitude is read as the decimal that it shows. -/
theorem readDecimal?_eq (h : IsMagnitude cs tail d) : readDecimal? cs = some d := by
  obtain ⟨hds, hes, htail⟩ := h
  have hnext : ∀ {tail n}, IsExponentPart tail n → NoDigitNext tail := by
    rintro _ _ (_ | n)
    · exact noDigitNext_nil
    · exact noDigitNext_cons.2 (by decide)
  rw [readDecimal?_point hds.2 hes.2 (fun h ↦ hds.1 h.1) (hnext htail),
    readExponent?_of_isExponentPart htail, Option.map_some]

end IsMagnitude

/-- **A written number is read back as itself.** -/
theorem read?_write (x : Binary64) : read? (write x) = some x := by
  match x with
  | .nan => rfl
  | .infinity true => rfl
  | .infinity false => rfl
  | .finite negative rank =>
    obtain ⟨tail, k, hk⟩ := isMagnitude_magnitude rank
    rw [write, writeIn, read?_signed negative hk.exists_cons,
      readMagnitude?_of_digits negative hk.exists_cons hk.exists_concat, hk.readDecimal?_eq,
      Option.map_some, toBinary64_withZeros, Decimal.toBinary64_shortest]

theorem read_write (x : Binary64) : read (write x) = .ok x := by rw [read, read?_write]

/-! ### Written numbers -/

/-- The written form of a number: a word, or a magnitude after its sign. -/
inductive IsWritten : List Char → Prop
  /-- The word for what is not a number. -/
  | nan : IsWritten NumberFormat.standard.nan
  /-- The word for an infinite magnitude. -/
  | infinity (negative : Bool) : IsWritten (signed negative NumberFormat.standard.infinity)
  /-- A finite magnitude. -/
  | finite (negative : Bool) {cs tail : List Char} {d : Decimal} (h : IsMagnitude cs tail d) :
      IsWritten (signed negative cs)

/-- What is written has the written form. -/
theorem isWritten_write (x : Binary64) : IsWritten (write x) := by
  match x with
  | .nan => exact .nan
  | .infinity negative => exact .infinity negative
  | .finite negative rank =>
    obtain ⟨tail, k, hk⟩ := isMagnitude_magnitude rank
    rw [write, writeIn]
    exact .finite negative hk

theorem mem_signed {c : Char} {cs : List Char} (negative : Bool) (hc : c ∈ cs) :
    c ∈ signed negative cs := by
  cases negative with
  | false => exact hc
  | true => exact List.mem_cons_of_mem '-' hc

/-- A sign adds no character but a minus. -/
theorem eq_minus_or_mem_of_mem_signed {c : Char} {cs : List Char} {negative : Bool}
    (hc : c ∈ signed negative cs) : c = '-' ∨ c ∈ cs := by
  cases negative with
  | false => exact .inr hc
  | true => exact List.mem_cons.1 hc

/-- A written number has a point or a letter. -/
theorem IsWritten.exists_point_or_letter {cs : List Char} (h : IsWritten cs) :
    ∃ c ∈ cs, c = '.' ∨ c.isAlpha = true := by
  rcases h with _ | negative | ⟨negative, h⟩
  · exact ⟨'N', by decide⟩
  · exact ⟨'I', mem_signed negative (by decide), by decide⟩
  · exact ⟨'.', mem_signed negative h.point_mem, by decide⟩

/-- A written number has a character that is found in no integer between bars. -/
theorem IsWritten.exists_mem {cs : List Char} (h : IsWritten cs) :
    ∃ c ∈ cs, c ≠ '|' ∧ c ≠ '-' ∧ c.isDigit = false := by
  obtain ⟨c, hc, hmark⟩ := h.exists_point_or_letter
  refine ⟨c, hc, ?_⟩
  rcases hmark with rfl | hletter
  · decide
  · refine ⟨?_, ?_, isDigit_of_isAlpha hletter⟩
    all_goals
      rintro rfl
      exact absurd hletter (by decide)

/-! ### The characters of written numbers -/

/-- What a written magnitude may contain besides digits. -/
def magnitudeMarks : List Char := ['.', 'E', '-']

/-- What a written number may contain besides digits. -/
def marks : List Char :=
  magnitudeMarks ++ NumberFormat.standard.nan ++ NumberFormat.standard.infinity

/-- A written magnitude has digits and marks in it and nothing else. -/
theorem IsMagnitude.isDigit_or_mem_marks {cs tail : List Char} {d : Decimal}
    (h : IsMagnitude cs tail d) {c : Char} (hc : c ∈ cs) :
    c.isDigit = true ∨ c ∈ magnitudeMarks := by
  obtain @⟨ds, es, _, n, hds, hes, htail⟩ := h
  simp only [List.mem_append, List.mem_cons] at hc
  rcases hc with hc | rfl | hc | hc
  · exact .inl (hds.2 c hc)
  · exact .inr (by decide)
  · exact .inl (hes.2 c hc)
  · cases htail with
    | none => simp at hc
    | mark n =>
      rcases List.mem_cons.1 hc with rfl | hc
      · exact .inr (by decide)
      · obtain ⟨exponent, hexponent, h | h⟩ := isDigits_of_integer n
        · exact .inl (hexponent.2 c (h ▸ hc))
        · rw [h] at hc
          rcases List.mem_cons.1 hc with rfl | hc
          · exact .inr (by decide)
          · exact .inl (hexponent.2 c hc)

/-- So has a written number, the letters of the words being among its marks. -/
theorem IsWritten.isDigit_or_mem_marks {cs : List Char} (h : IsWritten cs) {c : Char}
    (hc : c ∈ cs) : c.isDigit = true ∨ c ∈ marks := by
  have hminus : '-' ∈ marks := by decide
  rcases h with _ | negative | ⟨negative, h⟩
  · exact .inr (List.mem_append_left _ (List.mem_append_right _ hc))
  · rcases eq_minus_or_mem_of_mem_signed hc with rfl | hc
    · exact .inr hminus
    · exact .inr (List.mem_append_right _ hc)
  · rcases eq_minus_or_mem_of_mem_signed hc with rfl | hc
    · exact .inr hminus
    · exact (h.isDigit_or_mem_marks hc).imp_right fun hmark ↦
        List.mem_append_left _ (List.mem_append_left _ hmark)

/-- A written number has no operator character but a minus sign. -/
theorem IsWritten.eq_minus_of_mem {cs : List Char} (h : IsWritten cs) {c : Char} (hc : c ∈ cs)
    (hop : isOperatorChar c = true) : c = '-' := by
  have hmarks : ∀ c ∈ marks, isOperatorChar c = true → c = '-' := by
    simp [marks, magnitudeMarks, NumberFormat.standard, isOperatorChar]
  rcases h.isDigit_or_mem_marks hc with hdigit | hmark
  · rw [isOperatorChar_of_isDigit hdigit] at hop
    simp at hop
  · exact hmarks c hmark hop

/-- A written number has no blank. -/
theorem IsWritten.isBlank_of_mem {cs : List Char} (h : IsWritten cs) {c : Char} (hc : c ∈ cs) :
    Text.isBlank c = false := by
  have hmarks : ∀ c ∈ marks, Text.isBlank c = false := by
    simp [marks, magnitudeMarks, NumberFormat.standard, Text.isBlank]
  exact (h.isDigit_or_mem_marks hc).elim isBlank_of_isDigit (hmarks c)

end TextCalculator.Numeral
