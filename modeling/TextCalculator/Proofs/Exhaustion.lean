import TextCalculator.Expression.Evaluation
import TextCalculator.Proofs.Occurrence
import TextCalculator.Proofs.WrittenForm

/-!
# Rewriting until no redex is left

`Evaluation.exhaust` is the loop of an evaluation without the test for an absolute value. The two
agree on every text that is not an absolute value to begin with (`ofText_of_none`): every written
number has a character that no integer between bars has, so no later text is one.

A round reads its operands without fail (`Redex.exists_value_eq`), so division by zero is the only
thing that can go wrong before the end (`leftover_exhaust_eq_error`).
-/

namespace TextCalculator

/-! ### The value of a redex -/

theorem Operator.divides_iff {op : Operator} :
    op.divides = true ↔ op ∈ [quotient, wholeQuotient, remainder] := by
  cases op <;> decide

/-- Only a division by zero leaves an operator without a value. -/
theorem Operator.apply_eq_error_iff {op : Operator} {x y : Binary64} {error : EvalError} :
    op.apply x y = .error error ↔
      error = .divisionByZero ∧ op.divides = true ∧ y.isZero = true := by
  rw [apply]
  split
  · next h =>
    rw [Except.error.injEq, eq_comm]
    exact ⟨fun herror ↦ ⟨herror, Bool.and_eq_true_iff.1 h⟩, And.left⟩
  · next h =>
    refine ⟨nofun, fun ⟨_, hzero⟩ ↦ absurd (Bool.and_eq_true_iff.2 hzero) h⟩

namespace Redex

variable {op : Operator} {cs : List Char} {r : Redex}

/-- A redex between numbers computes what its operator does. -/
theorem value_of_read? {x y : Binary64} (hx : Numeral.read? r.left = some x)
    (hy : Numeral.read? r.right = some y) : r.value = r.operator.apply x y := by
  simp only [value, Numeral.read, hx, hy]
  rfl

/-- Both operands of a redex are read, and the operator is applied. -/
theorem exists_value_eq (h : find? op cs = some r) :
    ∃ x y, Numeral.read? r.left = some x ∧ Numeral.read? r.right = some y ∧
      r.value = r.operator.apply x y := by
  obtain ⟨x, hx⟩ := Operand.exists_read?_of_isOperand (isOperand_left h)
  obtain ⟨y, hy⟩ := Operand.exists_read?_of_isOperand (isOperand_right h)
  exact ⟨x, y, hx, hy, value_of_read? hx hy⟩

/-- A redex that is found fails for one reason only, since its operands are numbers. -/
theorem eq_divisionByZero_of_value {error : EvalError} (h : find? op cs = some r)
    (hvalue : r.value = .error error) : error = .divisionByZero := by
  obtain ⟨x, y, -, -, heq⟩ := exists_value_eq h
  exact (Operator.apply_eq_error_iff.1 (heq.symm.trans hvalue)).1

end Redex

/-! ### Absolute values -/

/-- An absolute value is digits after an optional minus sign, between two bars. -/
theorem absoluteForm?_eq_some_iff {cs inner : List Char} :
    absoluteForm? cs = some inner ↔ cs = '|' :: (inner ++ ['|']) ∧
      ∃ negative ds, Numeral.IsDigits ds ∧ inner = Numeral.signed negative ds := by
  constructor
  · intro h
    unfold absoluteForm? at h
    split at h
    · next cs =>
      simp only [Option.ite_none_right_eq_some, Option.some.injEq] at h
      obtain ⟨⟨hlast, hne, hdigits⟩, rfl⟩ := h
      obtain ⟨init, rfl⟩ := List.getLast?_eq_some_iff.1 hlast
      rw [List.dropLast_concat] at hne hdigits ⊢
      refine ⟨rfl, ?_⟩
      -- the digits are what is left of the text between the bars without its sign
      split at hdigits
      · next hsign =>
        obtain ⟨rest, rfl⟩ := List.head?_eq_some_iff.1 hsign
        exact ⟨true, rest, ⟨by simpa using hne, List.all_eq_true.1 hdigits⟩, rfl⟩
      · next hsign =>
        rw [if_neg hsign] at hne
        exact ⟨false, init, ⟨hne, List.all_eq_true.1 hdigits⟩, rfl⟩
    · simp at h
  · rintro ⟨rfl, negative, ds, hds, rfl⟩
    have hdigits : (if (Numeral.signed negative ds).head? = some '-'
        then (Numeral.signed negative ds).tail else Numeral.signed negative ds) = ds := by
      cases negative with
      | true => rfl
      | false =>
        obtain ⟨d, rest, rfl, hd⟩ := hds.exists_cons
        refine if_neg fun hsign ↦ ?_
        obtain rfl : d = '-' := Option.some.inj hsign
        simp at hd
    simp only [absoluteForm?, List.dropLast_concat, List.getLast?_concat, hdigits]
    exact if_pos ⟨trivial, hds.1, List.all_eq_true.2 hds.2⟩

/-- An integer between bars has no other characters than bars, minus signs and digits. -/
theorem mem_of_absoluteForm? {cs inner : List Char} (h : absoluteForm? cs = some inner) {c : Char}
    (hc : c ∈ cs) : c = '|' ∨ c = '-' ∨ c.isDigit = true := by
  obtain ⟨rfl, negative, ds, hds, rfl⟩ := absoluteForm?_eq_some_iff.1 h
  rcases List.mem_cons.1 hc with rfl | hc
  · exact .inl rfl
  rcases List.mem_append.1 hc with hc | hc
  · exact .inr ((Numeral.eq_minus_or_mem_of_mem_signed hc).imp_right (hds.2 c))
  · exact .inl (List.mem_singleton.1 hc)

/-- A text has no absolute value exactly if it is no integer between bars. -/
theorem absoluteForm?_eq_none_iff {cs : List Char} :
    absoluteForm? cs = none ↔ ∀ negative ds, Numeral.IsDigits ds →
      cs ≠ '|' :: (Numeral.signed negative ds ++ ['|']) := by
  rw [Option.eq_none_iff_forall_ne_some]
  constructor
  · intro h negative ds hds hcs
    exact h _ (absoluteForm?_eq_some_iff.2 ⟨hcs, negative, ds, hds, rfl⟩)
  · intro h inner hform
    obtain ⟨hcs, negative, ds, hds, rfl⟩ := absoluteForm?_eq_some_iff.1 hform
    exact h negative ds hds hcs

/-- One character that is neither a bar nor part of an integer is enough for that. -/
theorem absoluteForm?_eq_none {cs : List Char} {c : Char} (hc : c ∈ cs)
    (h : c ≠ '|' ∧ c ≠ '-' ∧ c.isDigit = false) : absoluteForm? cs = none := by
  rw [Option.eq_none_iff_forall_ne_some]
  intro inner hform
  rcases mem_of_absoluteForm? hform hc with hbar | hminus | hdigit
  · exact h.1 hbar
  · exact h.2.1 hminus
  · exact absurd hdigit (by simp [h.2.2])

/-- No text after a round is an absolute value. -/
theorem absoluteForm?_replace_write (r : Redex) (x : Binary64) :
    absoluteForm? (r.replace (Numeral.write x)) = none := by
  obtain ⟨c, hc, h⟩ := (Numeral.isWritten_write x).exists_mem
  exact absoluteForm?_eq_none (by simp [Redex.replace, hc]) h

/-! ### Exhaustion -/

/-- The text that is left at the end, unless a redex on the way had no value. -/
def Ending.leftover : Ending → Except EvalError (List Char)
  | absolute inner => .ok ('|' :: (inner ++ ['|']))
  | normal text => .ok text
  | failed _ error => .error error

namespace Evaluation

/-- Rewrites a text until no redex is left. -/
def exhaust (cs : List Char) : Evaluation :=
  match _due : Redex.first? cs with
  | none => ⟨[], .normal cs⟩
  | some redex =>
    match redex.value with
    | .error error => ⟨[], .failed redex error⟩
    | .ok value =>
      let round : Round := ⟨redex, value⟩
      (exhaust round.after).cons round
termination_by seams cs
decreasing_by exact Round.seams_after_lt ‹_›

variable {cs : List Char} {redex : Redex}

/-- Without a redex the text is left. -/
theorem exhaust_of_none (h : Redex.first? cs = none) : exhaust cs = ⟨[], .normal cs⟩ := by
  rw [exhaust]
  split
  · rfl
  · next hdue => rw [h] at hdue; simp at hdue

/-- A redex that fails ends the rewriting. -/
theorem exhaust_of_error {error : EvalError} (h : Redex.first? cs = some redex)
    (hvalue : redex.value = .error error) : exhaust cs = ⟨[], .failed redex error⟩ := by
  rw [exhaust]
  split
  · next hdue => rw [h] at hdue; simp at hdue
  · next r hdue =>
    obtain rfl : redex = r := Option.some.inj (h.symm.trans hdue)
    rw [hvalue]

/-- A redex with a value is rewritten, and the rewriting goes on. -/
theorem exhaust_of_ok {value : Binary64} (h : Redex.first? cs = some redex)
    (hvalue : redex.value = .ok value) :
    exhaust cs = (exhaust (redex.replace (Numeral.write value))).cons ⟨redex, value⟩ := by
  rw [exhaust]
  split
  · next hdue => rw [h] at hdue; simp at hdue
  · next r hdue =>
    obtain rfl : redex = r := Option.some.inj (h.symm.trans hdue)
    rw [hvalue]
    rfl

/-- Induction along the rounds of a text. -/
theorem exhaust_induction {motive : List Char → Prop}
    (normal : ∀ cs, Redex.first? cs = none → motive cs)
    (failed : ∀ cs redex error, Redex.first? cs = some redex → redex.value = .error error →
      motive cs)
    (round : ∀ cs redex value, Redex.first? cs = some redex → redex.value = .ok value →
      motive (redex.replace (Numeral.write value)) → motive cs)
    (cs : List Char) : motive cs := by
  induction hn : seams cs using Nat.strongRecOn generalizing cs with
  | ind n ih =>
    cases hdue : Redex.first? cs with
    | none => exact normal cs hdue
    | some redex =>
      cases hvalue : redex.value with
      | error error => exact failed cs redex error hdue hvalue
      | ok value =>
        have hlt := Round.seams_after_lt (r := ⟨redex, value⟩) hdue
        exact round cs redex value hdue hvalue (ih _ (hn ▸ hlt) _ rfl)

theorem ofText_of_some {inner : List Char} (h : absoluteForm? cs = some inner) :
    ofText cs = ⟨[], .absolute inner⟩ := by
  rw [ofText]
  split
  · next hform => rw [Option.some.inj (h.symm.trans hform)]
  · next hform => rw [h] at hform; simp at hform

theorem ofText_of_normal (h : absoluteForm? cs = none) (hdue : Redex.first? cs = none) :
    ofText cs = ⟨[], .normal cs⟩ := by
  rw [ofText]
  split
  · next hform => rw [h] at hform; simp at hform
  · split
    · rfl
    · next hsome => rw [hdue] at hsome; simp at hsome

theorem ofText_of_due (h : absoluteForm? cs = none) (hdue : Redex.first? cs = some redex) :
    ofText cs =
      match redex.value with
      | .error error => ⟨[], .failed redex error⟩
      | .ok value => (ofText (redex.replace (Numeral.write value))).cons ⟨redex, value⟩ := by
  rw [ofText]
  split
  · next hform => rw [h] at hform; simp at hform
  · split
    · next hnone => rw [hdue] at hnone; simp at hnone
    · next r hsome =>
      obtain rfl : redex = r := Option.some.inj (hdue.symm.trans hsome)
      rfl

/-- **An evaluation looks for an absolute value once.** A text that is none is rewritten until no
redex is left, and no later text is an absolute value. -/
theorem ofText_of_none (h : absoluteForm? cs = none) : ofText cs = exhaust cs := by
  induction cs using exhaust_induction with
  | normal cs hdue => rw [ofText_of_normal h hdue, exhaust_of_none hdue]
  | failed cs redex error hdue hvalue =>
    rw [ofText_of_due h hdue, exhaust_of_error hdue hvalue, hvalue]
  | round cs redex value hdue hvalue ih =>
    rw [ofText_of_due h hdue, exhaust_of_ok hdue hvalue, hvalue]
    exact congrArg (cons ⟨redex, value⟩) (ih (absoluteForm?_replace_write redex value))

/-- Rewriting can only fail because of a division by zero. -/
theorem leftover_exhaust_eq_error {error : EvalError}
    (h : (exhaust cs).ending.leftover = .error error) : error = .divisionByZero := by
  induction cs using exhaust_induction with
  | normal cs hdue => rw [exhaust_of_none hdue] at h; simp [Ending.leftover] at h
  | failed cs redex e hdue hvalue =>
    rw [exhaust_of_error hdue hvalue] at h
    obtain ⟨op, hop⟩ := Redex.exists_find?_of_first? hdue
    rw [← Except.error.inj h]
    exact Redex.eq_divisionByZero_of_value hop hvalue
  | round cs redex value hdue hvalue ih =>
    rw [exhaust_of_ok hdue hvalue] at h
    exact ih h

/-- Without an absolute value, the result is the number that the text left at the end is read
as. -/
theorem result_exhaust (cs : List Char) :
    (exhaust cs).result = (exhaust cs).ending.leftover >>= Numeral.read := by
  induction cs using exhaust_induction with
  | normal cs hdue => rw [exhaust_of_none hdue]; rfl
  | failed cs redex error hdue hvalue => rw [exhaust_of_error hdue hvalue]; rfl
  | round cs redex value hdue hvalue ih => rw [exhaust_of_ok hdue hvalue]; exact ih

end Evaluation

end TextCalculator
