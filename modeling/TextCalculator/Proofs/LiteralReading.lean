import TextCalculator.Proofs.Irreducible
import TextCalculator.Proofs.LiteralGrammar
import TextCalculator.Proofs.Nearest

/-!
# What an irreducible text is evaluated to

A text with which nothing is left to be done is a number if it is a literal, and malformed if not
(`evaluate_of_irreducible`).

One half is `isLiteral_of_read?`, that nothing else is read. For the other half each part of a
literal is read as what it stands for, by what may follow it: a sign is taken off because neither a
mantissa nor a word begins with one, a run of digits ends before a point or a mark, and the letter
at the end is no digit and no point (`read?_of_isLiteral`). What a decimal is then worth is not left
to the reading: it is the nearest number, by `Decimal.isRounded_iff`.
-/

namespace TextCalculator

namespace Numeral

/-! ### Signs -/

/-- A sign is taken from the front if no other one follows. -/
theorem splitSign_append {sign rest : List Char} {c : Char} {negative : Bool}
    (hsign : IsSign sign negative) (hc : c ≠ '-' ∧ c ≠ '+') :
    splitSign (sign ++ c :: rest) = (negative, c :: rest) := by
  cases hsign with
  | none => exact splitSign_cons hc
  | plus => rfl
  | minus => rfl

/-! ### Exponents -/

/-- A sign and digits are read as an integer. -/
theorem readInteger?_append {sign ds : List Char} {negative : Bool} (hsign : IsSign sign negative)
    (hds : IsDigits ds) :
    readInteger? (sign ++ ds) = some (if negative then -(value ds : Int) else value ds) := by
  have hread := readDigits?_digits hds
  cases hsign with
  | none =>
    obtain ⟨d, rest, rfl, hd⟩ := hds.exists_cons
    obtain ⟨hminus, hplus⟩ := ne_sign_of_isDigit hd
    rw [List.nil_append]
    unfold readInteger?
    split
    · next h => exact absurd (List.cons.inj h).1 hminus
    · next h => exact absurd (List.cons.inj h).1 hplus
    · rw [hread]
      rfl
  | plus => simp [readInteger?, hread]
  | minus => simp [readInteger?, hread]

/-- An exponent is read as the power of ten that it stands for. -/
theorem readExponent?_of_isExponent {exponent : List Char} {n : Int} (h : IsExponent exponent n) :
    readExponent? exponent = some n := by
  cases h with
  | none => rfl
  | mark hmark hsign hds => rw [readExponent?, if_pos hmark, readInteger?_append hsign hds]

/-- An exponent does not begin with a digit, so the digits in front of it end there. -/
theorem IsExponent.noDigitNext {exponent : List Char} {n : Int} (h : IsExponent exponent n) :
    NoDigitNext exponent := by
  cases h with
  | none => exact noDigitNext_nil
  | mark hmark =>
    rw [noDigitNext_cons]
    rcases hmark with rfl | rfl <;> decide

/-- It does not begin with a point either, so no fraction is found in it. -/
theorem IsExponent.fractionRun_eq {exponent : List Char} {n : Int} (h : IsExponent exponent n) :
    fractionRun exponent = ([], exponent) := by
  cases h with
  | none => rfl
  | mark hmark => rcases hmark with rfl | rfl <;> rfl

/-! ### Decimals -/

/-- A mantissa and an exponent are read as a decimal. -/
theorem readDecimal?_append {mantissa ds es exponent : List Char} {n : Int}
    (hmantissa : IsMantissa mantissa ds es) (hexponent : IsExponent exponent n) :
    readDecimal? (mantissa ++ exponent) = some ⟨value (ds ++ es), n - es.length⟩ := by
  have hnext := hexponent.noDigitNext
  have hread := readExponent?_of_isExponent hexponent
  cases hmantissa with
  | whole hds =>
    simp only [readDecimal?, digitRun_append hds.2 hnext, hexponent.fractionRun_eq, hread, hds.1,
      false_and, if_false, Option.map_some]
  | point hds hes hne =>
    rw [List.append_assoc, List.cons_append, readDecimal?_point hds hes hne hnext, hread,
      Option.map_some]

/-- A digit or a point. A decimal without a suffix letter begins and ends with one of these. -/
def IsDigitOrPoint (c : Char) : Prop := c.isDigit = true ∨ c = '.'

/-- A mantissa begins with a digit or a point. -/
theorem IsMantissa.exists_cons {mantissa ds es : List Char} (h : IsMantissa mantissa ds es) :
    ∃ c rest, mantissa = c :: rest ∧ IsDigitOrPoint c := by
  cases h with
  | whole hds =>
    obtain ⟨d, rest, rfl, hd⟩ := hds.exists_cons
    exact ⟨d, rest, rfl, .inl hd⟩
  | point hds hes hne =>
    cases ds with
    | nil => exact ⟨'.', es, rfl, .inr rfl⟩
    | cons d ds => exact ⟨d, ds ++ '.' :: es, rfl, .inl (hds d (by simp))⟩

theorem IsMantissa.exists_concat {mantissa ds es : List Char} (h : IsMantissa mantissa ds es) :
    ∃ init c, mantissa = init ++ [c] ∧ IsDigitOrPoint c := by
  cases h with
  | whole hds =>
    obtain ⟨init, d, rfl, hd⟩ := hds.exists_concat
    exact ⟨init, d, rfl, .inl hd⟩
  | point hds hes hne =>
    rcases List.eq_nil_or_concat es with rfl | ⟨es, d, rfl⟩
    · exact ⟨ds, '.', rfl, .inr rfl⟩
    · exact ⟨ds ++ '.' :: es, d, by simp, .inl (hes d (by simp))⟩

/-- A decimal without its suffix letter ends with a digit or a point, with an exponent or without. -/
theorem exists_concat_of_decimal {mantissa ds es exponent : List Char} {n : Int}
    (hmantissa : IsMantissa mantissa ds es) (hexponent : IsExponent exponent n) :
    ∃ init c, mantissa ++ exponent = init ++ [c] ∧ IsDigitOrPoint c := by
  cases hexponent with
  | none =>
    rw [List.append_nil]
    exact hmantissa.exists_concat
  | @mark mark sign digits negative hmark hsign hdigits =>
    obtain ⟨init, d, rfl, hd⟩ := hdigits.exists_concat
    exact ⟨mantissa ++ mark :: (sign ++ init), d, by simp, .inl hd⟩

/-! ### Suffix letters -/

theorem isSuffix_of_isDigitOrPoint {c : Char} (h : IsDigitOrPoint c) : isSuffix c = false := by
  rcases h with hdigit | rfl
  · exact isSuffix_of_isDigit hdigit
  · decide

/-- The suffix letter is what is dropped, if there is none before it. -/
theorem dropSuffix_append {init suffix : List Char} {c : Char} (hc : isSuffix c = false)
    (hsuffix : IsSuffixPart suffix) : dropSuffix (init ++ [c] ++ suffix) = init ++ [c] := by
  cases hsuffix with
  | none => simp [dropSuffix, hc]
  | letter hletter => simp [dropSuffix, hletter]

/-! ### Literals -/

/-- A decimal with its suffix is read as the number of its digits and its exponent. It is neither of
the words, since it begins with a digit or a point. -/
theorem readMagnitude?_decimal {mantissa ds es exponent suffix : List Char} {n : Int}
    (negative : Bool) (hmantissa : IsMantissa mantissa ds es) (hexponent : IsExponent exponent n)
    (hsuffix : IsSuffixPart suffix) :
    readMagnitude? negative (mantissa ++ (exponent ++ suffix)) =
      some (Decimal.toBinary64 ⟨value (ds ++ es), n - es.length⟩ negative) := by
  obtain ⟨c, rest, hfirst, hc⟩ := hmantissa.exists_cons
  obtain ⟨init, last, hconcat, hlast⟩ := exists_concat_of_decimal hmantissa hexponent
  have hword {a : Char} {word : List Char} (ha : ¬IsDigitOrPoint a) :
      mantissa ++ (exponent ++ suffix) ≠ a :: word := by
    rw [hfirst, List.cons_append]
    intro h
    exact ha ((List.cons.inj h).1 ▸ hc)
  have hinfinity : mantissa ++ (exponent ++ suffix) ≠ NumberFormat.standard.infinity :=
    hword (by simp [IsDigitOrPoint])
  have hnan : mantissa ++ (exponent ++ suffix) ≠ NumberFormat.standard.nan :=
    hword (by simp [IsDigitOrPoint])
  have hdrop : dropSuffix (mantissa ++ (exponent ++ suffix)) = mantissa ++ exponent := by
    rw [← List.append_assoc, hconcat]
    exact dropSuffix_append (isSuffix_of_isDigitOrPoint hlast) hsuffix
  rw [readMagnitude?, if_neg hinfinity, if_neg hnan, hdrop, readDecimal?_append hmantissa hexponent,
    Option.map_some]

/-- A literal is read as the number that it stands for. -/
theorem read?_of_isLiteral {cs : List Char} {x : Binary64} (h : IsLiteral cs x) :
    read? cs = some x := by
  cases h with
  | infinity hsign =>
    rw [read?, NumberFormat.standard, splitSign_append hsign (by decide)]
    rfl
  | nan hsign =>
    rw [read?, NumberFormat.standard, splitSign_append hsign (by decide)]
    rfl
  | decimal hsign hmantissa hexponent hsuffix =>
    obtain ⟨c, rest, hfirst, hc⟩ := hmantissa.exists_cons
    have hnosign : c ≠ '-' ∧ c ≠ '+' := by
      rcases hc with hdigit | rfl
      · exact ne_sign_of_isDigit hdigit
      · decide
    rw [read?, hfirst, List.cons_append, splitSign_append hsign hnosign, ← List.cons_append,
      ← hfirst]
    exact readMagnitude?_decimal _ hmantissa hexponent hsuffix

/-- Reading and the grammar agree. -/
theorem read?_eq_some_iff {cs : List Char} {x : Binary64} : read? cs = some x ↔ IsLiteral cs x :=
  ⟨isLiteral_of_read?, read?_of_isLiteral⟩

end Numeral

open Numeral

/-- **An irreducible text is evaluated to what it literally says.** It is evaluated to a number
exactly if it is a literal of that number, and reported whole if it is no literal. A decimal is
evaluated to the one number that is nearest to it, a tie going to the even one, with the sign in
front. -/
theorem evaluate_of_irreducible {expression : String} (h : IsIrreducible expression.toList) :
    (∀ x, evaluate expression = .ok x ↔ IsLiteral expression.toList x) ∧
    ((∀ x, ¬IsLiteral expression.toList x) →
      evaluate expression = .error (.malformed expression)) ∧
    ∀ (sign mantissa ds es exponent suffix : List Char) (negative : Bool) (n : Int),
      IsSign sign negative → IsMantissa mantissa ds es → IsExponent exponent n →
      IsSuffixPart suffix → expression.toList = sign ++ (mantissa ++ (exponent ++ suffix)) →
      ∃ x, evaluate expression = .ok x ∧
        ∀ y, Binary64.IsRounded negative (value (ds ++ es) * 10 ^ (n - es.length)) y ↔ y = x := by
  have hok (x : Binary64) : evaluate expression = .ok x ↔ IsLiteral expression.toList x := by
    rw [h.evaluate_eq, read_eq_ok_iff, read?_eq_some_iff]
  refine ⟨hok, fun hnone ↦ ?_, fun sign mantissa ds es exponent suffix negative n hsign hmantissa
    hexponent hsuffix htext ↦ ?_⟩
  · have hread : read? expression.toList = none :=
      Option.eq_none_iff_forall_ne_some.2 fun x hx ↦ hnone x (isLiteral_of_read? hx)
    rw [h.evaluate_eq]
    exact read_eq_malformed_iff.2 ⟨hread, rfl⟩
  · have hliteral := IsLiteral.decimal hsign hmantissa hexponent hsuffix
    rw [← htext] at hliteral
    exact ⟨_, (hok _).2 hliteral,
      fun y ↦ Decimal.isRounded_iff (d := ⟨value (ds ++ es), n - es.length⟩)⟩

/-- A decimal with every part is rounded, and one with two signs is reported. -/
theorem evaluate_of_irreducible_at_signs :
    (∃ x, evaluate "-.3E-1d" = .ok x ∧
      ∀ y, Binary64.IsRounded true ((3 : Nat) * 10 ^ (-1 - 1 : ℤ)) y ↔ y = x) ∧
    evaluate "+-1" = .error (.malformed "+-1") := by
  have hdecimal : IsIrreducible "-.3E-1d".toList := by decide +kernel
  have hsigns : IsIrreducible "+-1".toList := by decide +kernel
  have hmantissa : IsMantissa ['.', '3'] [] ['3'] :=
    @IsMantissa.point [] ['3'] (by simp) (isDigits_singleton rfl).2 (by simp)
  have hexponent : IsExponent ['E', '-', '1'] (-1) :=
    .mark (.inr rfl) .minus (isDigits_singleton rfl)
  refine ⟨?_, (evaluate_of_irreducible hsigns).2.1 fun x hx ↦ ?_⟩
  · exact (evaluate_of_irreducible hdecimal).2.2 _ _ _ _ _ _ _ _ .minus hmantissa hexponent
      (.letter (rfl : isSuffix 'd' = true)) rfl
  · have hread : read? "+-1".toList = none := by decide
    rw [read?_of_isLiteral hx] at hread
    exact absurd hread (by simp)

end TextCalculator
