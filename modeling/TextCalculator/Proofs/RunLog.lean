import TextCalculator.Expression.EvaluationLog
import TextCalculator.Proofs.AbsoluteForm
import TextCalculator.Proofs.LeftmostLongest

/-!
# The log tells the whole run

`Evaluation.Tells` says when lines are the account of a run, without the run: from text to text,
each round with the operators that were looked for in vain and then what was rewritten, up to a text
in which no operation is left or in which the one that is due divides by zero. The log of an
evaluation is such an account, and there is no other one (`tells_iff`), because one operation is due
in a text (`Redex.first?_eq_some_iff_isDue`).

The log is read off a finished evaluation. `Evaluation.narrate` is the evaluation that speaks as it
goes, operator by operator, and it says the same lines (`narrate_eq`); what matters there is that an
attempt stops at the operator of the redex that is due (`attempt_of_some`).
-/

namespace TextCalculator

/-- Reading a literal never ends in a division by zero. -/
theorem Numeral.read_ne_divisionByZero (cs : List Char) : read cs ≠ .error .divisionByZero := by
  rw [read]
  rcases read? cs with - | x
  · simp
  · simp

namespace Evaluation

/-! ### Speaking as it goes -/

/-- One round as it goes through the operators: a line for each that is looked for in vain, and for
the first that has a redex a line once its value is known; and the next text, if there is one. -/
def attempt (cs : List Char) : List Operator → List LogLine × Except EvalError (Option (List Char))
  | [] => ([], .ok none)
  | op :: ops =>
    match Redex.find? op cs with
    | none =>
      let (lines, next) := attempt cs ops
      (miss cs op :: lines, next)
    | some redex =>
      match redex.value with
      | .error error => ([], .error error)
      | .ok value => ([reduced ⟨redex, value⟩], .ok (some (redex.replace (Numeral.write value))))

/-- An attempt that succeeds leaves fewer seams, so attempts end. -/
theorem seams_lt_of_attempt {cs next : List Char} {ops : List Operator}
    (h : (attempt cs ops).2 = .ok (some next)) : seams next < seams cs := by
  induction ops with
  | nil => exact nomatch h
  | cons op ops ih =>
    rw [attempt] at h
    rcases hfind : Redex.find? op cs with - | redex
    · rw [hfind] at h
      exact ih h
    · rcases hvalue : redex.value with error | value
      · simp [hfind, hvalue] at h
      · obtain rfl : redex.replace (Numeral.write value) = next := by
          simpa [hfind, hvalue] using h
        exact Redex.seams_replace_lt hfind (Numeral.write_ne_nil _) (Numeral.seams_write _)

/-- The lines of an evaluation as it goes, and its result. -/
def narrate (cs : List Char) : List LogLine × Except EvalError Binary64 :=
  match absoluteForm? cs with
  | some inner => ([], (Numeral.read inner).map Binary64.abs)
  | none =>
    match _round : attempt cs Operator.scanOrder with
    | (lines, .error error) => (lines, .error error)
    | (lines, .ok none) => (lines, Numeral.read cs)
    | (lines, .ok (some next)) =>
      let (later, result) := narrate next
      (lines ++ later, result)
termination_by seams cs
decreasing_by exact seams_lt_of_attempt (congrArg Prod.snd _round)

/-- Operators without a redex are passed. -/
theorem attempt_append {cs : List Char} {before after : List Operator}
    (h : ∀ op ∈ before, Redex.find? op cs = none) :
    attempt cs (before ++ after) =
      (before.map (miss cs) ++ (attempt cs after).1, (attempt cs after).2) := by
  induction before with
  | nil => rfl
  | cons op before ih =>
    obtain ⟨hop, hbefore⟩ := List.forall_mem_cons.1 h
    rw [List.cons_append, attempt, hop]
    simp only [ih hbefore, List.map_cons, List.cons_append]

variable {cs : List Char} {redex : Redex}

theorem attempt_of_none (h : Redex.first? cs = none) :
    attempt cs Operator.scanOrder = (Operator.scanOrder.map (miss cs), .ok none) := by
  rw [← List.append_nil Operator.scanOrder,
    attempt_append fun op _ ↦ Redex.first?_eq_none_iff.1 h op]
  simp only [attempt, List.append_nil]

/-- A round goes through the operators up to that of the redex that is due. -/
theorem attempt_of_some (h : Redex.first? cs = some redex) :
    attempt cs Operator.scanOrder =
      match redex.value with
      | .error error => (redex.operator.earlier.map (miss cs), .error error)
      | .ok value =>
        (redex.operator.earlier.map (miss cs) ++ [reduced ⟨redex, value⟩],
          .ok (some (redex.replace (Numeral.write value)))) := by
  obtain ⟨hfind, hearlier⟩ := Redex.first?_eq_some_iff.1 h
  obtain ⟨after, horder⟩ := redex.operator.exists_scanOrder_eq
  rw [horder, attempt_append hearlier, attempt, hfind]
  rcases hvalue : redex.value with error | value
  · simp only [hvalue, List.append_nil]
  · simp only [hvalue]

theorem text_of_first? (h : Redex.first? cs = some redex) : redex.text = cs := by
  obtain ⟨op, hop⟩ := Redex.exists_find?_of_first? h
  exact Redex.text_of_find? hop

/-- The redex that is due has two numbers for its operands. -/
theorem exists_operands_of_first? (h : Redex.first? cs = some redex) :
    ∃ x y, Numeral.read? redex.left = some x ∧ Numeral.read? redex.right = some y ∧
      redex.value = redex.operator.apply x y := by
  obtain ⟨op, hop⟩ := Redex.exists_find?_of_first? h
  exact Redex.exists_value_eq hop

/-- If it has no value, it divides by zero. -/
theorem exists_zero_of_first? {error : EvalError} (h : Redex.first? cs = some redex)
    (hvalue : redex.value = .error error) :
    error = .divisionByZero ∧ redex.operator ∈ [.quotient, .wholeQuotient, .remainder] ∧
      ∃ y, Numeral.read? redex.right = some y ∧ y.isZero = true := by
  obtain ⟨x, y, -, hy, heq⟩ := exists_operands_of_first? h
  obtain ⟨herror, hdivides, hzero⟩ := Operator.apply_eq_error_iff.1 (heq.symm.trans hvalue)
  exact ⟨herror, Operator.divides_iff.1 hdivides, y, hy, hzero⟩

theorem log_cons (r : Round) (e : Evaluation) : (e.cons r).log = roundLog r ++ e.log := by
  rw [log, log, cons, List.flatMap_cons, List.append_assoc]

/-- The lines of a round name the text that it begins with and the next one. -/
theorem roundLog_append (h : Redex.first? cs = some redex) (value : Binary64)
    (lines : List LogLine) :
    roundLog ⟨redex, value⟩ ++ lines =
      redex.operator.earlier.map (miss cs) ++
        ⟨.debug, "reduced '" ++ String.ofList redex.matched ++ "' with " ++
          String.ofList redex.operator.symbol ++ ": " ++ String.ofList cs ++ " -> " ++
          String.ofList (redex.replace (Numeral.write value))⟩ :: lines := by
  rw [roundLog, misses, reduced, Round.before, text_of_first? h, List.append_assoc]
  rfl

theorem narrate_of_none (h : absoluteForm? cs = none) :
    narrate cs =
      match attempt cs Operator.scanOrder with
      | (lines, .error error) => (lines, .error error)
      | (lines, .ok none) => (lines, Numeral.read cs)
      | (lines, .ok (some next)) => (lines ++ (narrate next).1, (narrate next).2) := by
  rw [narrate, h]
  rcases hattempt : attempt cs Operator.scanOrder with ⟨lines, error | next⟩
  · rfl
  · rcases next with - | next <;> rfl

/-- The evaluation that speaks as it goes says the lines of the log. -/
theorem narrate_exhaust (h : absoluteForm? cs = none) :
    narrate cs = ((exhaust cs).log, (exhaust cs).result) := by
  induction cs using exhaust_induction with
  | normal cs hdue =>
    rw [narrate_of_none h, attempt_of_none hdue, exhaust_of_none hdue]
    rfl
  | failed cs redex error hdue hvalue =>
    rw [narrate_of_none h, attempt_of_some hdue, hvalue, exhaust_of_error hdue hvalue]
    show _ = (misses redex, _)
    rw [misses, text_of_first? hdue]
    rfl
  | round cs redex value hdue hvalue ih =>
    rw [narrate_of_none h, attempt_of_some hdue, hvalue, exhaust_of_ok hdue hvalue, log_cons,
      roundLog, misses, text_of_first? hdue]
    simp only [ih (absoluteForm?_replace_write redex value)]
    rfl

/-- Speaking as it goes, an evaluation says what its log says afterwards. -/
theorem narrate_eq (cs : List Char) : narrate cs = ((ofText cs).log, (ofText cs).result) := by
  rcases hform : absoluteForm? cs with - | inner
  · rw [ofText_of_none hform, narrate_exhaust hform]
  · rw [narrate, hform, ofText_of_some hform]
    rfl

/-! ### Accounts -/

/-- Lines are the account of a run from a text: the later texts, and the result. -/
inductive Tells :
    List Char → List (List Char) → List LogLine → Except EvalError Binary64 → Prop
  /-- A round. The operators before the one that is due are missing in the text; then the text
  becomes the next one by a value in the place of what was matched. -/
  | round {cs : List Char} {later : List (List Char)} {lines : List LogLine}
      {result : Except EvalError Binary64} {r : Redex} {x y value : Binary64}
      (hdue : Redex.IsDue cs r) (hleft : Numeral.read? r.left = some x)
      (hright : Numeral.read? r.right = some y) (hvalue : r.operator.apply x y = .ok value)
      (hlater : Tells (r.before ++ Numeral.write value ++ r.after) later lines result) :
      Tells cs ((r.before ++ Numeral.write value ++ r.after) :: later)
        (r.operator.earlier.map (miss cs) ++
          ⟨.debug, "reduced '" ++ String.ofList r.matched ++ "' with " ++
            String.ofList r.operator.symbol ++ ": " ++ String.ofList cs ++ " -> " ++
            String.ofList (r.before ++ Numeral.write value ++ r.after)⟩ :: lines) result
  /-- All operators are missing in the last text, and it is a number literal. -/
  | literal {cs : List Char} {x : Binary64} (hnone : ∀ op, ¬Redex.Contains op cs)
      (hread : Numeral.read? cs = some x) :
      Tells cs [] (Operator.scanOrder.map (miss cs)) (.ok x)
  /-- All operators are missing in the last text, and it is no number literal. -/
  | malformed {cs : List Char} (hnone : ∀ op, ¬Redex.Contains op cs)
      (hread : Numeral.read? cs = none) :
      Tells cs [] (Operator.scanOrder.map (miss cs)) (.error (.malformed (String.ofList cs)))
  /-- The operation that is due in the last text divides by zero. -/
  | division {cs : List Char} {r : Redex} {y : Binary64} (hdue : Redex.IsDue cs r)
      (hop : r.operator ∈ [.quotient, .wholeQuotient, .remainder])
      (hright : Numeral.read? r.right = some y) (hzero : y.isZero = true) :
      Tells cs [] (r.operator.earlier.map (miss cs)) (.error .divisionByZero)

/-- The log of an evaluation is an account of it. -/
theorem tells_exhaust (cs : List Char) :
    Tells cs ((exhaust cs).rounds.map Round.after) (exhaust cs).log (exhaust cs).result := by
  induction cs using exhaust_induction with
  | normal cs hdue =>
    rw [exhaust_of_none hdue]
    have hnone := Redex.first?_eq_none_iff_not_contains.1 hdue
    show Tells cs [] (Operator.scanOrder.map (miss cs)) (Numeral.read cs)
    rw [Numeral.read]
    rcases hread : Numeral.read? cs with - | x
    · exact .malformed hnone hread
    · exact .literal hnone hread
  | failed cs redex error hdue hvalue =>
    rw [exhaust_of_error hdue hvalue]
    obtain ⟨rfl, hop, y, hy, hzero⟩ := exists_zero_of_first? hdue hvalue
    show Tells cs [] (misses redex) _
    rw [misses, text_of_first? hdue]
    exact .division (Redex.isDue_of_first? hdue) hop hy hzero
  | round cs redex value hdue hvalue ih =>
    rw [exhaust_of_ok hdue hvalue]
    obtain ⟨x, y, hx, hy, heq⟩ := exists_operands_of_first? hdue
    rw [log_cons, roundLog_append hdue]
    exact .round (Redex.isDue_of_first? hdue) hx hy (heq.symm.trans hvalue) ih

/-- There is one account of a run. -/
theorem Tells.eq_exhaust {cs : List Char} {later : List (List Char)} {lines : List LogLine}
    {result : Except EvalError Binary64} (h : Tells cs later lines result) :
    later = (exhaust cs).rounds.map Round.after ∧ lines = (exhaust cs).log ∧
      result = (exhaust cs).result := by
  -- each way to go on names the redex that is due, and the run takes the same one
  induction h with
  | @round cs later lines result r x y value hdue hleft hright hvalue hlater ih =>
    obtain ⟨rfl, rfl, rfl⟩ := ih
    have hfirst := Redex.first?_eq_some_iff_isDue.2 hdue
    rw [exhaust_of_ok hfirst ((Redex.value_of_read? hleft hright).trans hvalue)]
    refine ⟨rfl, ?_, rfl⟩
    rw [log_cons, roundLog_append hfirst]
    rfl
  | literal hnone hread =>
    rw [exhaust_of_none (Redex.first?_eq_none_iff_not_contains.2 hnone)]
    exact ⟨rfl, rfl, (Numeral.read_eq_ok_iff.2 hread).symm⟩
  | malformed hnone hread =>
    rw [exhaust_of_none (Redex.first?_eq_none_iff_not_contains.2 hnone)]
    exact ⟨rfl, rfl, (Numeral.read_eq_malformed_iff.2 ⟨hread, String.toList_ofList⟩).symm⟩
  | @division cs r y hdue hop hright hzero =>
    have hfirst := Redex.first?_eq_some_iff_isDue.2 hdue
    obtain ⟨x, hleft⟩ := Operand.exists_read?_of_isOperand hdue.left
    have hvalue : r.value = .error .divisionByZero := by
      rw [Redex.value_of_read? hleft hright]
      exact Operator.apply_eq_error_iff.2 ⟨rfl, Operator.divides_iff.2 hop, hzero⟩
    rw [exhaust_of_error hfirst hvalue]
    refine ⟨rfl, ?_, rfl⟩
    show _ = misses r
    rw [misses, text_of_first? hfirst]

/-- One account tells a text: the texts after its rounds, its log, and its result. -/
theorem tells_iff {cs : List Char} (hform : absoluteForm? cs = none) {later : List (List Char)}
    {lines : List LogLine} {result : Except EvalError Binary64} :
    Tells cs later lines result ↔
      later = (ofText cs).rounds.map Round.after ∧ lines = (ofText cs).log ∧
        result = (ofText cs).result := by
  rw [ofText_of_none hform]
  refine ⟨Tells.eq_exhaust, ?_⟩
  rintro ⟨rfl, rfl, rfl⟩
  exact tells_exhaust cs

/-! ### The last lines -/

/-- The lines after the last round tell whether there was a division by zero. -/
theorem endingLog_of_endsAt {last : List Char} {ending : Ending} (h : EndsAt last ending)
    (hne : ∀ inner, ending ≠ .absolute inner) :
    (ending.result ≠ .error .divisionByZero →
      endingLog ending = Operator.scanOrder.map (miss last) ∧
        ending.result = Numeral.read last) ∧
    (ending.result = .error .divisionByZero →
      ∃ r y, Redex.IsDue last r ∧ r.operator ∈ [.quotient, .wholeQuotient, .remainder] ∧
        Numeral.read? r.right = some y ∧ y.isZero = true ∧
        endingLog ending = r.operator.earlier.map (miss last)) := by
  cases h with
  | absolute hform => exact absurd rfl (hne _)
  | normal _ hdue =>
    exact ⟨fun _ ↦ ⟨rfl, rfl⟩, fun hread ↦ absurd hread (Numeral.read_ne_divisionByZero last)⟩
  | @failed redex error hdue hvalue =>
    obtain ⟨rfl, hop, y, hy, hzero⟩ := exists_zero_of_first? hdue hvalue
    refine ⟨fun herror ↦ absurd rfl herror, fun _ ↦ ?_⟩
    refine ⟨redex, y, Redex.isDue_of_first? hdue, hop, hy, hzero, ?_⟩
    rw [endingLog, misses, text_of_first? hdue]

/-- **The log tells the whole run.** It is what an evaluation says that speaks as it goes, and its
result is that of this one. An integer between bars is evaluated without a line. For any other
expression, the log is the account of a run from the expression without its blanks, and there is
only one account, one list of later texts and one result. If the result is not a division by zero,
the lines of the rounds are followed by a miss of every operator in the last text, and the result is
what this text is read as; and if it is, then by the misses of the operators before the one that is
due in the last text and has a zero on its right. -/
theorem log_tells_run (expression : String) :
    narrate (Text.dropBlanks expression.toList) =
      ((ofExpression expression).log, evaluate expression) ∧
    (IsBetweenBars (Text.dropBlanks expression.toList) → (ofExpression expression).log = []) ∧
    (¬IsBetweenBars (Text.dropBlanks expression.toList) →
      (∀ later lines result, Tells (Text.dropBlanks expression.toList) later lines result ↔
        later = (ofExpression expression).rounds.map Round.after ∧
          lines = (ofExpression expression).log ∧ result = evaluate expression) ∧
      ∃ last,
        (texts (Text.dropBlanks expression.toList) (ofExpression expression)).getLast? =
          some last ∧
        (evaluate expression ≠ .error .divisionByZero →
          (ofExpression expression).log =
            (ofExpression expression).rounds.flatMap roundLog ++
              Operator.scanOrder.map (miss last) ∧
          evaluate expression = Numeral.read last) ∧
        (evaluate expression = .error .divisionByZero →
          ∃ r y, Redex.IsDue last r ∧ r.operator ∈ [.quotient, .wholeQuotient, .remainder] ∧
            Numeral.read? r.right = some y ∧ y.isZero = true ∧
            (ofExpression expression).log =
              (ofExpression expression).rounds.flatMap roundLog ++
                r.operator.earlier.map (miss last))) := by
  refine ⟨narrate_eq _, fun hbars ↦ ?_, fun hbars ↦ ?_⟩
  · obtain ⟨inner, hform⟩ := Option.ne_none_iff_exists'.1 (isBetweenBars_iff.1 hbars)
    rw [ofExpression, ofText_of_some hform]
    rfl
  · have hform := not_isBetweenBars_iff.1 hbars
    obtain ⟨last, hlast, hends⟩ := endsAt_ofText (Text.dropBlanks expression.toList)
    have hne (inner : List Char) : (ofExpression expression).ending ≠ .absolute inner := fun h ↦
      hbars (exists_ending_eq_absolute_iff.1 ⟨inner, h⟩)
    obtain ⟨hread, hdivision⟩ := endingLog_of_endsAt hends hne
    refine ⟨fun later lines result ↦ tells_iff hform, last, hlast, fun hresult ↦ ?_,
      fun hresult ↦ ?_⟩
    · obtain ⟨hlog, heq⟩ := hread hresult
      exact ⟨congrArg (_ ++ ·) hlog, heq⟩
    · obtain ⟨r, y, hdue, hop, hright, hzero, hlog⟩ := hdivision hresult
      exact ⟨r, y, hdue, hop, hright, hzero, congrArg (_ ++ ·) hlog⟩

/-- One round, and then a division by zero; and an absolute value. -/
theorem log_tells_run_at_zero_divisor :
    (ofExpression "|7|").log = [] ∧ evaluate "8/2//0" = .error .divisionByZero ∧
      Tells "8/2//0".toList ["4.0//0".toList] (ofExpression "8/2//0").log
        (.error .divisionByZero) ∧
      ∃ r y, Redex.IsDue "4.0//0".toList r ∧
        r.operator ∈ [.quotient, .wholeQuotient, .remainder] ∧
        Numeral.read? r.right = some y ∧ y.isZero = true ∧
        (ofExpression "8/2//0").log =
          (ofExpression "8/2//0").rounds.flatMap roundLog ++
            r.operator.earlier.map (miss "4.0//0".toList) := by
  have hbars : ¬IsBetweenBars (Text.dropBlanks "8/2//0".toList) := by decide +kernel
  have ⟨hlater, hlast, hzero⟩ :
      (ofExpression "8/2//0").rounds.map Round.after = ["4.0//0".toList] ∧
      (texts (Text.dropBlanks "8/2//0".toList) (ofExpression "8/2//0")).getLast? =
        some "4.0//0".toList ∧
      evaluate "8/2//0" = .error .divisionByZero := by decide +kernel
  obtain ⟨htells, last, hlast', -, hdivision⟩ := (log_tells_run "8/2//0").2.2 hbars
  obtain rfl := Option.some.inj (hlast.symm.trans hlast')
  exact ⟨(log_tells_run "|7|").2.1 (by decide +kernel), hzero,
    (htells _ _ _).2 ⟨hlater.symm, rfl, hzero.symm⟩, hdivision hzero⟩

-- The third line tells of the round. The division by zero that is due after it has no line.
example : (ofExpression "8/2//0").log.map LogLine.text =
    ["TRACE no match for '^' in 8/2//0", "TRACE no match for '*' in 8/2//0",
      "DEBUG reduced '8/2' with /: 8/2//0 -> 4.0//0", "TRACE no match for '^' in 4.0//0",
      "TRACE no match for '*' in 4.0//0", "TRACE no match for '/' in 4.0//0"] := by decide +kernel

end Evaluation

end TextCalculator
