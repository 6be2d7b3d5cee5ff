import TextCalculator.Proofs.Exhaustion

/-!
# Separators

A *separator* is a character that can be part of no operation. A redex lies on one side of it, so
the redex that is due in the whole text is the one that is due on its side
(`first?_append_separator`). The rounds of the two sides may alternate in any order, but each side
goes through its own rounds in its own order, and what is left at the end is what each side leaves
by itself, with the separator in between (`joined_exhaust`).
-/

namespace TextCalculator

/-- A character that no operation contains, that no absolute value contains, and that is not
dropped. -/
structure IsSeparator (c : Char) : Prop where
  /-- It is not a blank. -/
  not_blank : Text.isBlank c = false
  /-- It is not a digit. -/
  not_digit : c.isDigit = false
  /-- It is not a decimal point. -/
  not_point : c ≠ '.'
  /-- It is not a bar. -/
  not_bar : c ≠ '|'
  /-- It belongs to no operator. -/
  not_operator : isOperatorChar c = false

namespace IsSeparator

variable {c : Char} (hc : IsSeparator c)

include hc

theorem not_minus : c ≠ '-' := by
  rintro rfl
  exact absurd hc.not_operator (by decide)

/-- No operator is written with a separator. -/
theorem not_mem_symbol (op : Operator) : c ∉ op.symbol := by
  intro hmem
  have hop := Operator.isOperatorChar_of_mem_symbol hmem
  rw [hc.not_operator] at hop
  exact absurd hop (by simp)

/-! ### Operands and redexes on one side -/

/-- The digits at the front of a text end before the separator. -/
theorem takeWhile_isDigit (xs ys : List Char) :
    (xs ++ c :: ys).takeWhile Char.isDigit = xs.takeWhile Char.isDigit := by
  induction xs with
  | nil => simp [hc.not_digit]
  | cons x xs ih => simp only [List.cons_append, List.takeWhile_cons, ih]

/-- What comes after these digits goes on to the separator and beyond. -/
theorem dropWhile_isDigit (xs ys : List Char) :
    (xs ++ c :: ys).dropWhile Char.isDigit = xs.dropWhile Char.isDigit ++ c :: ys := by
  induction xs with
  | nil => simp [hc.not_digit]
  | cons x xs ih =>
    simp only [List.cons_append, List.dropWhile_cons, ih]
    split <;> rfl

/-- An unsigned operand at the front is found as if the separator and all behind it were missing. -/
theorem splitUnsigned?_append (xs ys : List Char) :
    Operand.splitUnsigned? (xs ++ c :: ys) =
      (Operand.splitUnsigned? xs).map fun (operand, rest) ↦ (operand, rest ++ c :: ys) := by
  simp only [Operand.splitUnsigned?, hc.takeWhile_isDigit, hc.dropWhile_isDigit]
  split
  · rfl
  -- the two characters after the digits decide whether a fraction follows
  · rcases xs.dropWhile Char.isDigit with _ | ⟨d, _ | ⟨e, more⟩⟩
    · rw [List.nil_append]
      split
      · next h => exact absurd (List.cons.inj h).1 hc.not_point
      · rfl
    · by_cases hd : d = '.'
      · subst hd
        simp [hc.not_digit]
      · simp [hd]
    · by_cases hd : d = '.'
      · subst hd
        simp only [List.cons_append, hc.takeWhile_isDigit, hc.dropWhile_isDigit]
        split <;> rfl
      · simp [hd]

/-- So is an operand with a sign. -/
theorem split?_append (xs ys : List Char) :
    Operand.split? (xs ++ c :: ys) =
      (Operand.split? xs).map fun (operand, rest) ↦ (operand, rest ++ c :: ys) := by
  match xs with
  | [] =>
    rw [Operand.split?_eq_splitUnsigned? (by simpa using hc.not_minus),
      Operand.split?_eq_splitUnsigned? (by simp)]
    exact hc.splitUnsigned?_append [] ys
  | x :: xs =>
    by_cases hx : x = '-'
    · subst hx
      rw [List.cons_append, Operand.split?_minus_cons, Operand.split?_minus_cons,
        hc.splitUnsigned?_append, Option.map_map, Option.map_map]
      rfl
    · rw [Operand.split?_eq_splitUnsigned? (by simpa using hx),
        Operand.split?_eq_splitUnsigned? (by simpa using hx)]
      exact hc.splitUnsigned?_append (x :: xs) ys

end IsSeparator

namespace Redex

theorem value_within (left right : List Char) (r : Redex) :
    (r.within left right).value = r.value := rfl

/-- A word is found at the front as if a character that it does not contain and all behind it were
missing. -/
theorem dropWord?_append_cons {c : Char} {word : List Char} (hword : c ∉ word) (xs ys : List Char) :
    dropWord? word (xs ++ c :: ys) = (dropWord? word xs).map (· ++ c :: ys) := by
  induction word generalizing xs with
  | nil => rfl
  | cons w word ih =>
    rw [List.mem_cons, not_or] at hword
    cases xs with
    | nil => simp [dropWord?, Ne.symm hword.1]
    | cons x xs =>
      simp only [List.cons_append, dropWord?]
      split
      · exact ih hword.2 xs
      · rfl

variable {c : Char} (hc : IsSeparator c)

include hc

/-- A redex at the front lies before the separator. -/
theorem atFront?_append_separator (op : Operator) (xs ys : List Char) :
    atFront? op (xs ++ c :: ys) = (atFront? op xs).map (within [] (c :: ys)) := by
  simp only [atFront?, hc.split?_append]
  cases Operand.split? xs with
  | none => rfl
  | some p =>
    simp only [Option.map_some, dropWord?_append_cons (hc.not_mem_symbol op)]
    cases dropWord? op.symbol p.2 with
    | none => rfl
    | some afterOperator =>
      simp only [Option.map_some, hc.split?_append]
      cases Operand.split? afterOperator <;> rfl

/-- The leftmost redex is on the left side if there is one. -/
theorem find?_append_separator (op : Operator) (xs ys : List Char) :
    find? op (xs ++ c :: ys) =
      ((find? op xs).map (within [] (c :: ys))).or
        ((find? op ys).map (within (xs ++ [c]) [])) := by
  induction xs with
  | nil =>
    have hnone : atFront? op (c :: ys) = none := atFront?_append_separator hc op [] ys
    simp only [List.nil_append, find?, hnone, Option.map_none, Option.none_or]
    congr 1
    funext r
    simp [within, shift]
  | cons x xs ih =>
    have hfront := atFront?_append_separator hc op (x :: xs) ys
    rw [List.cons_append] at hfront
    rw [List.cons_append, find?, find?, hfront]
    cases atFront? op (x :: xs) with
    | some r => rfl
    | none =>
      simp only [Option.map_none, ih, Option.map_or, Option.map_map]
      rfl

/-- There is no redex for an operator exactly if there is none on either side. -/
theorem find?_append_separator_eq_none {op : Operator} {xs ys : List Char} :
    find? op (xs ++ c :: ys) = none ↔ find? op xs = none ∧ find? op ys = none := by
  rw [find?_append_separator hc]
  simp

/-- The redex that is due is due on one of the sides, or none is due on either. -/
theorem first?_append_separator (xs ys : List Char) :
    (first? (xs ++ c :: ys) = none ∧ first? xs = none ∧ first? ys = none) ∨
      (∃ r, first? xs = some r ∧ first? (xs ++ c :: ys) = some (r.within [] (c :: ys))) ∨
      ∃ r, first? ys = some r ∧ first? (xs ++ c :: ys) = some (r.within (xs ++ [c]) []) := by
  cases hdue : first? (xs ++ c :: ys) with
  | none =>
    rw [first?_eq_none_iff] at hdue
    refine .inl ⟨rfl, first?_eq_none_iff.2 fun op ↦ ?_, first?_eq_none_iff.2 fun op ↦ ?_⟩
    · exact ((find?_append_separator_eq_none hc).1 (hdue op)).1
    · exact ((find?_append_separator_eq_none hc).1 (hdue op)).2
  | some redex =>
    obtain ⟨hfind, hearlier⟩ := first?_eq_some_iff.1 hdue
    have hnone := fun op hop ↦ (find?_append_separator_eq_none hc).1 (hearlier op hop)
    rw [find?_append_separator hc] at hfind
    rcases Option.or_eq_some_iff.1 hfind with hleft | ⟨hleft, hright⟩
    · obtain ⟨r, hr, rfl⟩ := Option.map_eq_some_iff.1 hleft
      exact .inr (.inl ⟨r, first?_eq_some_iff.2 ⟨hr, fun op hop ↦ (hnone op hop).1⟩, rfl⟩)
    · obtain ⟨r, hr, rfl⟩ := Option.map_eq_some_iff.1 hright
      exact .inr (.inr ⟨r, first?_eq_some_iff.2 ⟨hr, fun op hop ↦ (hnone op hop).2⟩, rfl⟩)

end Redex

/-! ### Evaluations on both sides -/

namespace Evaluation

/-- How the rewriting of a text with a separator ends, from how it ends on both sides. -/
structure Joined (c : Char) (left right whole : Evaluation) : Prop where
  /-- If a text is left on both sides, they are left together, after as many rounds. -/
  normal : ∀ {a b : List Char}, left.ending.leftover = .ok a → right.ending.leftover = .ok b →
    whole.ending = .normal (a ++ c :: b) ∧
      whole.rounds.length = left.rounds.length + right.rounds.length
  /-- If one side fails, so does the whole. -/
  failed : ∀ {error : EvalError},
    left.ending.leftover = .error error ∨ right.ending.leftover = .error error →
      whole.ending.leftover = .error .divisionByZero

variable {c : Char}

/-- A round of the left side is a round of the whole. -/
theorem Joined.cons_left {left right whole : Evaluation} (h : Joined c left right whole)
    (r s : Round) : Joined c (left.cons r) right (whole.cons s) where
  normal ha hb := by
    obtain ⟨hending, hlength⟩ := h.normal ha hb
    refine ⟨hending, ?_⟩
    simp only [cons, List.length_cons]
    omega
  failed := h.failed

theorem Joined.cons_right {left right whole : Evaluation} (h : Joined c left right whole)
    (r s : Round) : Joined c left (right.cons r) (whole.cons s) where
  normal ha hb := by
    obtain ⟨hending, hlength⟩ := h.normal ha hb
    refine ⟨hending, ?_⟩
    simp only [cons, List.length_cons]
    omega
  failed := h.failed

/-- Each side of a separator is rewritten as it would be by itself. -/
theorem joined_exhaust (hc : IsSeparator c) (xs ys : List Char) :
    Joined c (exhaust xs) (exhaust ys) (exhaust (xs ++ c :: ys)) := by
  -- the induction is on the rounds of the whole text; each is a round of one of the sides
  induction hcs : xs ++ c :: ys using exhaust_induction generalizing xs ys with
  | normal cs hdue =>
    subst hcs
    rcases Redex.first?_append_separator hc xs ys with ⟨-, hxs, hys⟩ | ⟨r, -, hr⟩ | ⟨r, -, hr⟩
    · rw [exhaust_of_none hdue, exhaust_of_none hxs, exhaust_of_none hys]
      refine ⟨fun ha hb ↦ ?_, by simp [Ending.leftover]⟩
      rw [Except.ok.inj ha, Except.ok.inj hb]
      exact ⟨rfl, rfl⟩
    · rw [hdue] at hr; simp at hr
    · rw [hdue] at hr; simp at hr
  | failed cs redex error hdue hvalue =>
    subst hcs
    obtain ⟨op, hop⟩ := Redex.exists_find?_of_first? hdue
    obtain rfl := Redex.eq_divisionByZero_of_value hop hvalue
    rcases Redex.first?_append_separator hc xs ys with ⟨hnone, -⟩ | ⟨r, hr, h⟩ | ⟨r, hr, h⟩
    · rw [hdue] at hnone; simp at hnone
    all_goals
      obtain rfl := Option.some.inj (hdue.symm.trans h)
      rw [Redex.value_within] at hvalue
      rw [exhaust_of_error hdue hvalue, exhaust_of_error hr hvalue]
      refine ⟨fun ha hb ↦ ?_, fun _ ↦ rfl⟩
    · simp [Ending.leftover] at ha
    · simp [Ending.leftover] at hb
  | round cs redex value hdue hvalue ih =>
    subst hcs
    rcases Redex.first?_append_separator hc xs ys with ⟨hnone, -⟩ | ⟨r, hr, h⟩ | ⟨r, hr, h⟩
    · rw [hdue] at hnone; simp at hnone
    · obtain rfl := Option.some.inj (hdue.symm.trans h)
      rw [exhaust_of_ok hdue hvalue, exhaust_of_ok hr hvalue]
      exact (ih _ _ (by simp [Redex.replace_within])).cons_left _ _
    · obtain rfl := Option.some.inj (hdue.symm.trans h)
      rw [exhaust_of_ok hdue hvalue, exhaust_of_ok hr hvalue]
      exact (ih _ _ (by simp [Redex.replace_within])).cons_right _ _

/-- The rewriting of an expression, without the test for an absolute value. -/
def reduction (expression : String) : Evaluation := exhaust (Text.dropBlanks expression.toList)

/-- The text that rewriting an expression leaves, if no redex on the way was without a value. -/
def normalForm (expression : String) : Except EvalError (List Char) :=
  (reduction expression).ending.leftover

/-- A separator stays where it is when blanks are dropped. -/
theorem dropBlanks_append_separator (hc : IsSeparator c) (xs ys : List Char) :
    Text.dropBlanks (xs ++ c :: ys) = Text.dropBlanks xs ++ c :: Text.dropBlanks ys := by
  simp [Text.dropBlanks, hc.not_blank]

/-- An expression with a separator is no absolute value, so its evaluation is the rewriting of its
text. -/
theorem ofExpression_append_separator (hc : IsSeparator c) (a b : String) :
    ofExpression (a ++ String.singleton c ++ b) =
      exhaust (Text.dropBlanks a.toList ++ c :: Text.dropBlanks b.toList) := by
  have htext : (a ++ String.singleton c ++ b).toList = a.toList ++ c :: b.toList := by simp
  rw [ofExpression, htext, dropBlanks_append_separator hc]
  exact ofText_of_none (absoluteForm?_eq_none (c := c) (by simp)
    ⟨hc.not_bar, hc.not_minus, hc.not_digit⟩)

/-- **Separators separate.** An expression with a separator fails with a division by zero exactly if
one of its sides does. Otherwise the text that is left at the end is what each side leaves by
itself, with the separator in between; it takes the rounds of both sides; and the result is the
number that this text is read as. -/
theorem evaluate_append_separator (hc : IsSeparator c) (a b : String) :
    (evaluate (a ++ String.singleton c ++ b) = .error .divisionByZero ↔
      normalForm a = .error .divisionByZero ∨ normalForm b = .error .divisionByZero) ∧
    (∀ left right : List Char, normalForm a = .ok left → normalForm b = .ok right →
      (ofExpression (a ++ String.singleton c ++ b)).ending = .normal (left ++ c :: right) ∧
      (ofExpression (a ++ String.singleton c ++ b)).rounds.length =
        (reduction a).rounds.length + (reduction b).rounds.length ∧
      evaluate (a ++ String.singleton c ++ b) = Numeral.read (left ++ c :: right)) ∧
    ∀ (expression : String) (error : EvalError), normalForm expression = .error error →
      error = .divisionByZero := by
  have hjoined := joined_exhaust hc (Text.dropBlanks a.toList) (Text.dropBlanks b.toList)
  have honly : ∀ (expression : String) (error : EvalError),
      normalForm expression = .error error → error = .divisionByZero :=
    fun _ _ ↦ leftover_exhaust_eq_error
  have hread : ∀ cs : List Char, Numeral.read cs ≠ .error .divisionByZero := by
    intro cs
    rw [Numeral.read]
    split <;> simp
  rw [evaluate, ofExpression_append_separator hc]
  have hnormal : ∀ left right : List Char, normalForm a = .ok left → normalForm b = .ok right →
      (exhaust (Text.dropBlanks a.toList ++ c :: Text.dropBlanks b.toList)).ending =
        .normal (left ++ c :: right) ∧
      (exhaust (Text.dropBlanks a.toList ++ c :: Text.dropBlanks b.toList)).rounds.length =
        (reduction a).rounds.length + (reduction b).rounds.length ∧
      (exhaust (Text.dropBlanks a.toList ++ c :: Text.dropBlanks b.toList)).result =
        Numeral.read (left ++ c :: right) := by
    intro left right ha hb
    obtain ⟨hending, hlength⟩ := hjoined.normal ha hb
    exact ⟨hending, hlength, by rw [result, hending]; rfl⟩
  refine ⟨⟨fun hzero ↦ ?_, fun hside ↦ ?_⟩, hnormal, honly⟩
  · cases ha : normalForm a with
    | error error => exact .inl (by rw [honly a error ha])
    | ok left =>
      cases hb : normalForm b with
      | error error => exact .inr (by rw [honly b error hb])
      | ok right =>
        rw [(hnormal left right ha hb).2.2] at hzero
        exact absurd hzero (hread _)
  · rw [result_exhaust, hjoined.failed hside]
    rfl

/-- A parenthesis separates a side that fails from one that does not, and it separates two sides
that both leave a text. -/
theorem evaluate_append_separator_at_parenthesis :
    IsSeparator '(' ∧
      evaluate "1-2*3(3/0" = .error .divisionByZero ∧
      (ofExpression "1-2*3(4+4").ending = .normal "-5.0(8.0".toList ∧
      (ofExpression "1-2*3(4+4").rounds.length = 3 := by
  have hc : IsSeparator '(' := ⟨by decide, by decide, by decide, by decide, by decide⟩
  have hleft : normalForm "1-2*3" = .ok "-5.0".toList :=
    congrArg Ending.leftover
      (show (reduction "1-2*3").ending = .normal "-5.0".toList by decide +kernel)
  have hright : normalForm "4+4" = .ok "8.0".toList :=
    congrArg Ending.leftover
      (show (reduction "4+4").ending = .normal "8.0".toList by decide +kernel)
  have hzero : normalForm "3/0" = .error .divisionByZero :=
    congrArg Ending.leftover
      (show (reduction "3/0").ending =
        .failed ⟨[], ['3'], .quotient, ['0'], []⟩ .divisionByZero by decide +kernel)
  have hrounds : (reduction "1-2*3").rounds.length + (reduction "4+4").rounds.length = 3 := by
    decide +kernel
  obtain ⟨hending, hlength, -⟩ :=
    (evaluate_append_separator hc "1-2*3" "4+4").2.1 _ _ hleft hright
  exact ⟨hc, (evaluate_append_separator hc "1-2*3" "3/0").1.2 (.inr hzero), hending,
    hlength.trans hrounds⟩

end Evaluation

end TextCalculator
