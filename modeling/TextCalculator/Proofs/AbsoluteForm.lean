import TextCalculator.Proofs.Irreducible
import TextCalculator.Proofs.Nearest

/-!
# Absolute values come from the user

An integer between two bars (`IsBetweenBars`) is looked for before every round, but only the first
look can find one. A round leaves a written number in the text, and every written number has a point
or a letter (`Numeral.IsWritten.exists_point_or_letter`), which an integer between bars has not.

So an evaluation is that of an absolute value exactly if the expression is one, and it may as well
look for the form once (`lookingOnce_eq_ofText`). The value is that of the digits between the bars,
without the sign (`result_absolute`).
-/

namespace TextCalculator

/-- A text that is an integer between two bars. -/
def IsBetweenBars (cs : List Char) : Prop :=
  ∃ negative ds, Numeral.IsDigits ds ∧ cs = '|' :: (Numeral.signed negative ds ++ ['|'])

/-- The form is what the search for an absolute value finds. -/
theorem isBetweenBars_iff {cs : List Char} : IsBetweenBars cs ↔ absoluteForm? cs ≠ none := by
  rw [Option.ne_none_iff_exists']
  constructor
  · rintro ⟨negative, ds, hds, htext⟩
    exact ⟨_, absoluteForm?_eq_some_iff.2 ⟨htext, negative, ds, hds, rfl⟩⟩
  · rintro ⟨inner, hform⟩
    obtain ⟨htext, negative, ds, hds, rfl⟩ := absoluteForm?_eq_some_iff.1 hform
    exact ⟨negative, ds, hds, htext⟩

theorem not_isBetweenBars_iff {cs : List Char} : ¬IsBetweenBars cs ↔ absoluteForm? cs = none := by
  rw [isBetweenBars_iff, Ne, Classical.not_not]

instance (cs : List Char) : Decidable (IsBetweenBars cs) :=
  decidable_of_iff _ isBetweenBars_iff.symm

/-! ### Numbers without their sign -/

namespace Binary64

/-- Without its sign a number has the same rank. -/
theorem abs_ofRank (negative : Bool) (rank : Nat) :
    (ofRank negative rank).abs = ofRank false rank := by
  unfold ofRank
  split <;> rfl

/-- The sign of a number is the one that it was made with, also of zero. -/
theorem isNegative_ofRank (negative : Bool) (rank : Nat) :
    (ofRank negative rank).isNegative = negative := by
  unfold ofRank
  split <;> rfl

end Binary64

/-- A decimal read with a minus sign is, without its sign, the decimal read without one. -/
theorem Decimal.abs_toBinary64 (d : Decimal) (negative : Bool) :
    (d.toBinary64 negative).abs = d.toBinary64 false := by
  rw [toBinary64_eq_ofRank, toBinary64_eq_ofRank, Binary64.abs_ofRank]

/-- A decimal without an exponent is its digits. -/
theorem Decimal.toRat_whole (n : Nat) : toRat ⟨n, 0⟩ = n := by
  rw [toRat, zpow_zero, mul_one]

/-- A number is read with the sign that was written, even if it is rounded to zero. -/
theorem Decimal.isNegative_toBinary64 (d : Decimal) (negative : Bool) :
    (d.toBinary64 negative).isNegative = negative := by
  rw [toBinary64_eq_ofRank, Binary64.isNegative_ofRank]

namespace Evaluation

/-! ### Texts after a round -/

/-- A text after a round has the written number of the round in it, and in this a point or a
letter. -/
theorem exists_point_or_letter_of_getElem? {cs text : List Char} {e : Evaluation} {k : Nat}
    (h : (texts cs e)[k + 1]? = some text) :
    ∃ r : Round, e.rounds[k]? = some r ∧
      text = r.redex.before ++ Numeral.write r.value ++ r.redex.after ∧
      ∃ c ∈ Numeral.write r.value, c = '.' ∨ c.isAlpha = true := by
  rw [texts, List.getElem?_cons_succ, List.getElem?_map, Option.map_eq_some_iff] at h
  obtain ⟨r, hr, rfl⟩ := h
  exact ⟨r, hr, rfl, (Numeral.isWritten_write r.value).exists_point_or_letter⟩

/-! ### Looking once -/

/-- The evaluation of a text that looks for an absolute value once, before the first round. -/
def lookingOnce (cs : List Char) : Evaluation :=
  match absoluteForm? cs with
  | some inner => ⟨[], .absolute inner⟩
  | none => exhaust cs

/-- Looking for an absolute value once is looking for it before every round. -/
theorem lookingOnce_eq_ofText (cs : List Char) : lookingOnce cs = ofText cs := by
  rw [lookingOnce]
  rcases hform : absoluteForm? cs with - | inner
  · exact (ofText_of_none hform).symm
  · exact (ofText_of_some hform).symm

/-- An evaluation that looks before every round takes the path exactly if the text has the form
before the first. -/
theorem exists_ending_eq_absolute_iff {cs : List Char} :
    (∃ inner, (ofText cs).ending = .absolute inner) ↔ IsBetweenBars cs := by
  rw [isBetweenBars_iff, Option.ne_none_iff_exists']
  constructor
  · rintro ⟨inner, h⟩
    exact ⟨inner, (absoluteForm?_of_ending h).1⟩
  · rintro ⟨inner, hform⟩
    exact ⟨inner, by rw [ofText_of_some hform]⟩

/-! ### The value -/

/-- The value of an absolute value is that of its digits, without the sign. -/
theorem result_absolute (negative : Bool) {ds : List Char} (hds : Numeral.IsDigits ds) :
    (Ending.absolute (Numeral.signed negative ds)).result =
      .ok (Decimal.toBinary64 ⟨Numeral.value ds, 0⟩ false) := by
  rw [Ending.result, Numeral.read, Numeral.read?_signed_digits negative hds,
    ← Decimal.abs_toBinary64 _ negative]
  rfl

/-- **Absolute values come from the user.** Every text after a round has the written number of the
round in it; in this there is a point or a letter, and so the text is no integer between two bars.
An evaluation ends in an absolute value exactly if the expression is one, but for blanks. It takes
no round then, and it gives the number nearest to the one that the digits stand for, which is not
negative, and is the positive zero if the digits are zeros. To look for an absolute value once,
before the first round, makes no difference to the rounds or to the result. -/
theorem absolute_iff_expression (expression : String) :
    (∀ (k : Nat) (text : List Char),
      (texts (Text.dropBlanks expression.toList) (ofExpression expression))[k + 1]? = some text →
      (∃ r : Round, (ofExpression expression).rounds[k]? = some r ∧
        text = r.redex.before ++ Numeral.write r.value ++ r.redex.after ∧
        ∃ c ∈ Numeral.write r.value, c = '.' ∨ c.isAlpha = true) ∧
      ¬IsBetweenBars text) ∧
    ((∃ inner, (ofExpression expression).ending = .absolute inner) ↔
      IsBetweenBars (Text.dropBlanks expression.toList)) ∧
    (∀ negative ds, Numeral.IsDigits ds →
      Text.dropBlanks expression.toList = '|' :: (Numeral.signed negative ds ++ ['|']) →
      ofExpression expression = ⟨[], .absolute (Numeral.signed negative ds)⟩ ∧
      ∃ x, evaluate expression = .ok x ∧ x.isNegative = false ∧
        (Numeral.value ds = 0 → x = .zero false) ∧
        ∀ y, Binary64.IsRounded false (Numeral.value ds) y ↔ y = x) ∧
    lookingOnce (Text.dropBlanks expression.toList) = ofExpression expression ∧
    (lookingOnce (Text.dropBlanks expression.toList)).result = evaluate expression := by
  have honce := lookingOnce_eq_ofText (Text.dropBlanks expression.toList)
  refine ⟨fun k text htext ↦ ?_, exists_ending_eq_absolute_iff, fun negative ds hds hform ↦ ?_,
    honce, congrArg result honce⟩
  -- a point or a letter comes with every written number, and neither is in an absolute value
  · obtain ⟨r, hr, htext, hmark⟩ := exists_point_or_letter_of_getElem? htext
    refine ⟨⟨r, hr, htext, hmark⟩, not_isBetweenBars_iff.2 ?_⟩
    rw [htext]
    exact absoluteForm?_replace_write r.redex r.value
  · have heq : ofExpression expression = ⟨[], .absolute (Numeral.signed negative ds)⟩ :=
      ofText_of_some (absoluteForm?_eq_some_iff.2 ⟨hform, negative, ds, hds, rfl⟩)
    refine ⟨heq, Decimal.toBinary64 ⟨Numeral.value ds, 0⟩ false, ?_,
      Decimal.isNegative_toBinary64 _ false, fun hzero ↦ ?_, fun y ↦ ?_⟩
    · rw [evaluate, heq]
      exact result_absolute negative hds
    · rw [hzero]
      rfl
    · rw [← Decimal.toRat_whole]
      exact Decimal.isRounded_iff

/-- The negative zero between bars is the positive one. A difference between bars is computed, and
the text after that is no absolute value. -/
theorem absolute_iff_expression_at_bars :
    evaluate "| -0 |" = .ok (.zero false) ∧
      (texts "|5-3|".toList (ofExpression "|5-3|"))[1]? = some "|2.0|".toList ∧
      ¬IsBetweenBars "|2.0|".toList := by
  have hzero : Text.dropBlanks "| -0 |".toList = '|' :: (Numeral.signed true ['0'] ++ ['|']) := by
    decide
  have hdifference : (texts (Text.dropBlanks "|5-3|".toList) (ofExpression "|5-3|"))[1]? =
      some "|2.0|".toList := by decide +kernel
  obtain ⟨-, -, hvalue, -⟩ := absolute_iff_expression "| -0 |"
  obtain ⟨-, x, hx, -, hpositive, -⟩ := hvalue true ['0'] (Numeral.isDigits_singleton rfl) hzero
  obtain ⟨-, hform⟩ := (absolute_iff_expression "|5-3|").1 0 _ hdifference
  exact ⟨hpositive rfl ▸ hx, hdifference, hform⟩

end Evaluation

end TextCalculator
