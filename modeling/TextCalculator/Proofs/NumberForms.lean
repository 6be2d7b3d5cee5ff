import TextCalculator.Proofs.ChainEvaluation
import TextCalculator.Proofs.EncodedMagnitude
import TextCalculator.Proofs.MinusSigns

/-!
# The forms of written numbers

A written number is a word, digits around a point, or such with one digit other than zero before the
point and an exponent behind (`Numeral.HasForm`). A text has at most one form: the letters that it
contains tell which (`Numeral.HasForm.eq_ofText`). The form that a number is written in can be read
off its pattern of bits (`Numeral.Form.ofBits`).

That the digit before the point is not zero rests on two facts: the digits of a positive number
begin with another one (`Numeral.head?_digits_ne_zero`), and only zero has a shortest decimal whose
digits are zero (`Decimal.shortest_digits_ne_zero`).
-/

namespace TextCalculator

/-! ### The first digit -/

/-- The digits of a positive number do not begin with a zero. -/
theorem Numeral.head?_digits_ne_zero {n : Nat} (h : n ≠ 0) : (digits n).head? ≠ some '0' := by
  induction n using Nat.strong_induction_on with
  | _ n ih =>
    rcases Nat.lt_or_ge n 10 with hlt | hge
    · rw [digits, Nat.toDigits_of_lt_base hlt]
      intro hhead
      have hcode := Nat.toNat_digitChar_of_lt_ten hlt
      rw [Option.some.inj hhead] at hcode
      exact h (Nat.add_left_cancel hcode).symm
    · rw [digits, Nat.toDigits_of_base_le (by decide) hge,
        List.head?_append_of_ne_nil _ Nat.toDigits_ne_nil]
      exact ih (n / 10) (by omega) (by omega)

/-- Only zero has a shortest decimal whose digits are zero. -/
theorem Decimal.shortest_digits_ne_zero {rank : Fin Binary64.magnitudeCount}
    (h : rank.val ≠ 0) : (shortest rank).digits ≠ 0 := by
  intro hzero
  have hread := toBinary64_shortest false rank
  rw [toBinary64_eq_ofRank, Binary64.decimalRank_eq_zero (.inl hzero)] at hread
  exact h (congrArg Fin.val (Binary64.finite.inj hread).2).symm

namespace Numeral

/-! ### Forms -/

/-- The forms of written numbers, with the sign. -/
inductive Form where
  /-- The word for what is not a number. -/
  | nan
  /-- The word for an infinite number. -/
  | infinity (negative : Bool)
  /-- Plain notation. -/
  | plain (negative : Bool)
  /-- Scientific notation. -/
  | scientific (negative : Bool)
deriving DecidableEq

/-- The text has the form. -/
inductive HasForm : List Char → Form → Prop
  /-- The word for what is not a number. -/
  | nan : HasForm ['N', 'a', 'N'] .nan
  /-- The word for an infinite number. -/
  | infinity (negative : Bool) :
      HasForm (signed negative ['I', 'n', 'f', 'i', 'n', 'i', 't', 'y']) (.infinity negative)
  /-- Digits on both sides of a point. -/
  | plain (negative : Bool) {ds es : List Char} (hds : IsDigits ds) (hes : IsDigits es) :
      HasForm (signed negative (ds ++ '.' :: es)) (.plain negative)
  /-- One digit other than zero before a point, digits behind it, and an exponent. -/
  | scientific (negative below : Bool) {d : Char} {es ns : List Char} (hd : d.isDigit = true)
      (hzero : d ≠ '0') (hes : IsDigits es) (hns : IsDigits ns) :
      HasForm (signed negative (d :: '.' :: (es ++ 'E' :: signed below ns))) (.scientific negative)

namespace Form

/-- Whether a form begins with a minus sign. -/
def isNegative : Form → Bool
  | nan => false
  | infinity negative | plain negative | scientific negative => negative

/-- The form of a text that has one. -/
def ofText (cs : List Char) : Form :=
  let negative := cs.head? = some '-'
  if 'a' ∈ cs then nan
  else if 'y' ∈ cs then infinity negative
  else if 'E' ∈ cs then scientific negative
  else plain negative

/-- The form that the number with a pattern of bits is written in. -/
def ofBits (bits : UInt64) : Form :=
  let negative := Binary64.signBit ≤ bits.toNat
  if Binary64.EncodesNan bits then nan
  else if Binary64.EncodesInfinity bits then infinity negative
  else if Binary64.IsPlainMagnitude (Binary64.encodedMagnitude bits) then plain negative
  else scientific negative

/-- The sign of a form is that of the number. -/
theorem isNegative_ofBits (bits : UInt64) : (ofBits bits).isNegative = true ↔
    ¬Binary64.EncodesNan bits ∧ Binary64.signBit ≤ bits.toNat := by
  rw [ofBits]
  split_ifs with hnan <;> simp [isNegative, hnan]

/-- The plain form is for what is zero or in the plain range. -/
theorem exists_ofBits_eq_plain_iff {bits : UInt64} : (∃ negative, ofBits bits = plain negative) ↔
    ¬Binary64.EncodesNan bits ∧ ¬Binary64.EncodesInfinity bits ∧
      Binary64.IsPlainMagnitude (Binary64.encodedMagnitude bits) := by
  rw [ofBits]
  split_ifs with hnan hinfinity hplain
  · simp [hnan]
  · simp [hinfinity]
  · simp [hnan, hinfinity, hplain]
  · simp [hplain]

end Form

theorem not_mem_signed {negative : Bool} {cs : List Char} {c : Char} (hcs : c ∉ cs)
    (hc : c ≠ '-') : c ∉ signed negative cs := fun hmem ↦
  (eq_minus_or_mem_of_mem_signed hmem).elim hc hcs

theorem signed_append (negative : Bool) (cs ds : List Char) :
    signed negative (cs ++ ds) = signed negative cs ++ ds := by
  cases negative <;> rfl

/-- The minus sign of a number is seen at its front. -/
theorem head?_signed_eq_minus_iff {negative : Bool} {c : Char} {cs : List Char} (hc : c ≠ '-') :
    (signed negative (c :: cs)).head? = some '-' ↔ negative = true := by
  cases negative <;> simp [signed, hc]

/-- Scientific notation is an operand, a mark, and another operand. -/
theorem exists_operands_scientific (negative below : Bool) {d : Char} {es ns : List Char}
    (hd : d.isDigit = true) (hes : IsDigits es) (hns : IsDigits ns) :
    ∃ left right, signed negative (d :: '.' :: (es ++ 'E' :: signed below ns)) =
        left ++ 'E' :: right ∧ Operand.IsOperand left ∧ Operand.IsOperand right :=
  ⟨signed negative ([d] ++ '.' :: es), signed below ns, by rw [← signed_append]; simp,
    Operand.isOperand_signed negative (.point (isDigits_singleton hd) hes),
    Operand.isOperand_signed below (.whole hns)⟩

namespace HasForm

variable {cs : List Char} {form : Form}

/-- Behind the sign of a form there is no other one. -/
theorem head?_eq_minus_iff (h : HasForm cs form) :
    cs.head? = some '-' ↔ form.isNegative = true := by
  cases h with
  | nan => decide
  | infinity negative => exact head?_signed_eq_minus_iff (by decide)
  | plain negative hds hes =>
    obtain ⟨d, rest, rfl, hd⟩ := hds.exists_cons
    exact head?_signed_eq_minus_iff (ne_sign_of_isDigit hd).1
  | scientific negative below hd hzero hes hns =>
    exact head?_signed_eq_minus_iff (ne_sign_of_isDigit hd).1

theorem decide_head?_eq_minus (h : HasForm cs form) :
    decide (cs.head? = some '-') = form.isNegative :=
  Bool.eq_iff_iff.2 (decide_eq_true_iff.trans h.head?_eq_minus_iff)

/-- The letters of a text and its sign tell what form it has. -/
theorem eq_ofText (h : HasForm cs form) : form = .ofText cs := by
  have hsign := h.decide_head?_eq_minus
  rw [Form.ofText]
  cases h with
  | nan => decide
  | infinity negative =>
    have ha : 'a' ∉ signed negative ['I', 'n', 'f', 'i', 'n', 'i', 't', 'y'] :=
      not_mem_signed (by decide) (by decide)
    have hy : 'y' ∈ signed negative ['I', 'n', 'f', 'i', 'n', 'i', 't', 'y'] :=
      mem_signed negative (by decide)
    rw [if_neg ha, if_pos hy, hsign]
    rfl
  | @plain negative ds es hds hes =>
    have hoperand := Operand.isOperand_signed negative (.point hds hes)
    have hletter {c : Char} (halpha : c.isAlpha = true) :
        c ∉ signed negative (ds ++ '.' :: es) := hoperand.letter_not_mem halpha
    rw [if_neg (hletter (by decide)), if_neg (hletter (by decide)), if_neg (hletter (by decide)),
      hsign]
    rfl
  | @scientific negative below d es ns hd hzero hes hns =>
    obtain ⟨left, right, htext, hleft, hright⟩ :=
      exists_operands_scientific negative below hd hes hns
    rw [htext] at hsign ⊢
    -- operands have no letters, so the mark is the only one
    have hletter {c : Char} (halpha : c.isAlpha = true) (hne : c ≠ 'E') :
        c ∉ left ++ 'E' :: right := by
      simp [hleft.letter_not_mem halpha, hright.letter_not_mem halpha, hne]
    rw [if_neg (hletter (by decide) (by decide)), if_neg (hletter (by decide) (by decide)),
      if_pos (by simp), hsign]
    rfl

/-- Of the forms only plain notation is that of an operand. -/
theorem isOperand_iff (h : HasForm cs form) :
    Operand.IsOperand cs ↔ ∃ negative, form = .plain negative := by
  constructor
  · intro hoperand
    cases h with
    | nan => exact absurd (by decide) (hoperand.letter_not_mem (c := 'N') (by decide))
    | infinity negative =>
      exact absurd (mem_signed negative (by decide))
        (hoperand.letter_not_mem (c := 'y') (by decide))
    | plain negative hds hes => exact ⟨negative, rfl⟩
    | scientific negative below hd hzero hes hns =>
      exact absurd (mem_signed negative (by simp))
        (hoperand.letter_not_mem (c := 'E') (by decide))
  · rintro ⟨negative, rfl⟩
    obtain _ | _ | ⟨_, hds, hes⟩ := h
    exact Operand.isOperand_signed negative (.point hds hes)

end HasForm

/-! ### The form of a written number -/

namespace IsWritten

variable {cs : List Char}

/-- A written number has none of the operator characters that are no minus sign, and no bar. -/
theorem mark_not_mem (h : IsWritten cs) : ∀ c ∈ ['^', '*', '/', '%', '+', '|'], c ∉ cs := by
  intro c hmark hc
  have hneither : ∀ c ∈ ['^', '*', '/', '%', '+', '|'], c.isDigit = false ∧ c ∉ marks := by
    simp [marks, magnitudeMarks, NumberFormat.standard]
  obtain ⟨hdigit, hmarks⟩ := hneither c hmark
  exact (h.isDigit_or_mem_marks hc).elim (Bool.eq_false_iff.1 hdigit) hmarks

/-- A minus sign is the first character of a written number or behind the exponent mark. -/
theorem eq_nil_or_getLast?_eq_mark {front back : List Char} (h : IsWritten (front ++ '-' :: back)) :
    front = [] ∨ front.getLast? = some 'E' := by
  rcases front.eq_nil_or_concat with rfl | ⟨init, a, rfl⟩
  · exact .inl rfl
  · have hchain := h.isChain
    rw [List.concat_eq_append, List.append_assoc, List.singleton_append,
      List.isChain_append_cons_cons] at hchain
    exact .inr (by rw [List.concat_eq_append, List.getLast?_concat, hchain.2.1 rfl])

end IsWritten

/-- Plain notation is used in the plain range. -/
theorem isPlain_iff_isPlainMagnitude {rank : Nat} :
    isPlain .standard rank = true ↔
      Binary64.IsPlainMagnitude (Binary64.magnitudeOfRank rank) := by
  rw [isPlain_standard_iff, Binary64.isPlainMagnitude_magnitudeOfRank_iff]

theorem hasForm_plain (negative : Bool) (d : Decimal) :
    HasForm (signed negative (plain d)) (.plain negative) := by
  obtain ⟨ds, es, hds, hes, hplain⟩ := exists_plain_eq d
  rw [hplain]
  exact .plain negative hds hes

theorem hasForm_scientific (negative : Bool) {d : Decimal} (h : d.digits ≠ 0) :
    HasForm (signed negative (scientific .standard d)) (.scientific negative) := by
  have hdigits := isDigits_digits d.digits
  have hhead := head?_digits_ne_zero h
  rw [scientific]
  split
  · next hnil => exact absurd hnil hdigits.1
  · next first rest hcons =>
    rw [hcons] at hdigits hhead
    have hfirst : first.isDigit = true := hdigits.2 first List.mem_cons_self
    have hne : first ≠ '0' := fun heq ↦ hhead (congrArg some heq)
    have hfraction : IsDigits (if rest = [] then ['0'] else rest) := by
      split
      · exact isDigits_singleton (by decide)
      · next hrest => exact ⟨hrest, fun c hc ↦ hdigits.2 c (List.mem_cons_of_mem _ hc)⟩
    obtain ⟨ns, hns, hexponent | hexponent⟩ := isDigits_of_integer (d.exponent + rest.length)
    · rw [hexponent]
      exact .scientific negative false hfirst hne hfraction hns
    · rw [hexponent]
      exact .scientific negative true hfirst hne hfraction hns

/-- What is written of a pattern has the form of the pattern. -/
theorem hasForm_write_ofBits (bits : UInt64) :
    HasForm (write (.ofBits bits)) (.ofBits bits) := by
  rw [Form.ofBits]
  by_cases hnan : Binary64.EncodesNan bits
  · rw [if_pos hnan, Binary64.ofBits_of_encodesNan hnan]
    exact .nan
  by_cases hinfinity : Binary64.EncodesInfinity bits
  · rw [if_neg hnan, if_pos hinfinity, Binary64.ofBits_of_encodesInfinity hinfinity]
    exact .infinity _
  obtain ⟨rank, hrank, hfinite⟩ := Binary64.exists_ofBits_eq_finite hnan hinfinity
  rw [if_neg hnan, if_neg hinfinity, Binary64.encodedMagnitude_eq, ← hrank, hfinite, write, writeIn,
    magnitude]
  by_cases hplain : Binary64.IsPlainMagnitude (Binary64.magnitudeOfRank rank)
  · rw [if_pos hplain, if_pos (isPlain_iff_isPlainMagnitude.2 hplain)]
    exact hasForm_plain _ _
  · rw [if_neg hplain, if_neg (mt isPlain_iff_isPlainMagnitude.1 hplain)]
    -- zero is in the plain range, so the digits are not those of zero
    refine hasForm_scientific _ (Decimal.shortest_digits_ne_zero fun hzero ↦ hplain (.inl ?_))
    rw [hzero, Binary64.magnitudeOfRank_zero]

end Numeral

open Binary64 Numeral

/-- **The forms of written numbers.** Whatever pattern of bits a number has, its written form has
one of the forms and no other, and the pattern tells which. It begins with a minus sign exactly if
the pattern encodes a number and has its sign bit set, and is an operand exactly if the number is
finite and in the plain range. No blank and no operator character but the minus sign is in it, nor a
bar; a minus sign is its first character or stands right behind the exponent mark, and no operation
is part of it. The plain range is the same with the bounds rounded to numbers of the format. -/
theorem render_has_form (bits : UInt64) :
    let text := (ofBits bits).render.toList
    (∀ form, HasForm text form ↔ form = .ofBits bits) ∧
    (text.head? = some '-' ↔ ¬EncodesNan bits ∧ signBit ≤ bits.toNat) ∧
    (Operand.IsOperand text ↔ ¬EncodesNan bits ∧ ¬EncodesInfinity bits ∧
      IsPlainMagnitude (encodedMagnitude bits)) ∧
    (∀ c ∈ text, Text.isBlank c = false ∧ c ∉ ['^', '*', '/', '%', '+', '|']) ∧
    (∀ front back, text = front ++ '-' :: back → front = [] ∨ front.getLast? = some 'E') ∧
    (∀ op, ¬Redex.Contains op text) ∧
    (IsPlainMagnitude (encodedMagnitude bits) ↔ encodedMagnitude bits = 0 ∨
      encodedMagnitude thousandth ≤ encodedMagnitude bits ∧
        encodedMagnitude bits < encodedMagnitude tenMillion) := by
  intro text
  have htext : text = write (ofBits bits) := toList_render _
  have hform : HasForm text (.ofBits bits) := htext ▸ hasForm_write_ofBits bits
  have hwritten : IsWritten text := htext ▸ isWritten_write _
  refine ⟨fun form ↦ ⟨fun h ↦ ?_, fun h ↦ h ▸ hform⟩, ?_, ?_,
    fun c hc ↦ ⟨hwritten.isBlank_of_mem hc, fun hmark ↦ hwritten.mark_not_mem c hmark hc⟩,
    fun front back hsplit ↦ (hsplit ▸ hwritten).eq_nil_or_getLast?_eq_mark,
    htext ▸ (isIrreducible_write _).no_operation, ?_⟩
  · rw [h.eq_ofText, hform.eq_ofText]
  · rw [hform.head?_eq_minus_iff, Form.isNegative_ofBits]
  · rw [hform.isOperand_iff, Form.exists_ofBits_eq_plain_iff]
  · rw [IsPlainMagnitude, encodedMagnitude_thousandth_le_iff, encodedMagnitude_tenMillion]

/-- A thousandth, and the negative of the number right below it. -/
theorem render_has_form_at_thousandth :
    (HasForm "0.001".toList (.plain false) ∧ Operand.IsOperand "0.001".toList) ∧
      HasForm "-9.999999999999998E-4".toList (.scientific true) ∧
      ¬Operand.IsOperand "-9.999999999999998E-4".toList ∧
      Text.isBlank 'E' = false ∧ "-9.999999999999998E".toList.getLast? = some 'E' := by
  have htext : (ofBits thousandth).render = "0.001" := by decide +kernel
  have hbelow : (ofBits 0xbf50624dd2f1a9fb).render = "-9.999999999999998E-4" := by decide +kernel
  have hplain : .plain false = Form.ofBits thousandth := by decide +kernel
  have hscientific : .scientific true = Form.ofBits 0xbf50624dd2f1a9fb := by decide +kernel
  obtain ⟨hform, -, hoperand, -⟩ := render_has_form thousandth
  obtain ⟨hform', -, hoperand', hmarks, hminus, -⟩ := render_has_form 0xbf50624dd2f1a9fb
  rw [htext] at hform hoperand
  rw [hbelow] at hform' hoperand' hmarks hminus
  refine ⟨⟨(hform _).2 hplain, hoperand.2 (by decide +kernel)⟩, (hform' _).2 hscientific,
    hoperand'.not.2 (by decide +kernel), (hmarks 'E' (by decide)).1, ?_⟩
  exact (hminus "-9.999999999999998E".toList ['4'] (by decide)).resolve_left (by decide)

-- The bound of the range that is not part of it, and the number right below it.
example : Form.ofBits tenMillion = .scientific false ∧
    Form.ofBits (tenMillion - 1) = .plain false := by decide +kernel

end TextCalculator
