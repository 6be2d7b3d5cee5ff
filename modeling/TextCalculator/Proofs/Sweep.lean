import TextCalculator.Proofs.MinusSigns
import TextCalculator.Proofs.Run

/-!
# One sweep over the operators

`Evaluation.sweep` exhausts one operator after the other and never goes back to an earlier one. On a
text without two minus signs in a row it goes through the same rounds as an evaluation that starts
over after each of them (`sweep_eq_exhaust`), since no round makes an operator occur again that has
been exhausted.

With two minus signs in a row this can happen: a product that begins with a minus sign may come out
positive, and then the minus sign before it is free to be the sign of an operand.
-/

namespace TextCalculator

/-- The place of an operator in the order in which operators are looked for. -/
def Operator.position (op : Operator) : Nat := scanOrder.idxOf op

/-- No operator comes after the difference. -/
theorem Operator.ne_difference_of_mem_earlier {op p : Operator} (h : p ∈ op.earlier) :
    p ≠ .difference := by
  have hnone : ∀ p ∈ op.earlier, p ≠ .difference := by cases op <;> decide
  exact hnone p h

namespace Evaluation

/-! ### Sweeps -/

/-- Exhausts the operators in turn. -/
def sweep : List Operator → List Char → Evaluation
  | [], cs => ⟨[], .normal cs⟩
  | op :: ops, cs =>
    match _found : Redex.find? op cs with
    | none => sweep ops cs
    | some redex =>
      match redex.value with
      | .error error => ⟨[], .failed redex error⟩
      | .ok value =>
        (sweep (op :: ops) (redex.replace (Numeral.write value))).cons ⟨redex, value⟩
termination_by ops cs => seams cs + ops.length
decreasing_by
  · exact Nat.lt_succ_self _
  · exact Nat.add_lt_add_right
      (Redex.seams_replace_lt ‹_› (Numeral.write_ne_nil _) (Numeral.seams_write _)) _

/-- The evaluation of a text by one sweep over all operators. -/
def bySweep (cs : List Char) : Evaluation :=
  match absoluteForm? cs with
  | some inner => ⟨[], .absolute inner⟩
  | none => sweep Operator.scanOrder cs

/-- The operators of an evaluation, round by round; the last may be that of a redex without a
value. -/
def operators (e : Evaluation) : List Operator :=
  e.rounds.map (·.redex.operator) ++
    match e.ending with
    | .failed redex _ => [redex.operator]
    | _ => []

theorem operators_cons (r : Round) (e : Evaluation) :
    (e.cons r).operators = r.redex.operator :: e.operators := rfl

/-! ### The operators of a sweep -/

theorem mem_of_mem_operators_sweep {ops : List Operator} {cs : List Char} {op : Operator}
    (h : op ∈ (sweep ops cs).operators) : op ∈ ops := by
  fun_induction sweep ops cs with
  | case1 cs => simp [operators] at h
  | case2 p ops cs hfind ih => exact List.mem_cons_of_mem p (ih h)
  | case3 p ops cs redex hfind error hvalue =>
    obtain rfl : op = redex.operator := by simpa [operators] using h
    rw [Redex.operator_of_find? hfind]
    exact List.mem_cons_self
  | case4 p ops cs redex hfind value hvalue ih =>
    rw [operators_cons] at h
    rcases List.mem_cons.1 h with rfl | h
    · show redex.operator ∈ p :: ops
      rw [Redex.operator_of_find? hfind]
      exact List.mem_cons_self
    · exact ih h

/-- A sweep meets operators in the order of its list. -/
theorem pairwise_operators_sweep {ops : List Operator} {cs : List Char}
    (h : ops.Pairwise (·.position ≤ ·.position)) :
    (sweep ops cs).operators.Pairwise (·.position ≤ ·.position) := by
  fun_induction sweep ops cs with
  | case1 cs => exact .nil
  | case2 p ops cs hfind ih => exact ih (List.pairwise_cons.1 h).2
  | case3 p ops cs redex hfind error hvalue => exact List.pairwise_singleton _ _
  | case4 p ops cs redex hfind value hvalue ih =>
    rw [operators_cons, List.pairwise_cons]
    refine ⟨fun op hop ↦ ?_, ih h⟩
    show redex.operator.position ≤ op.position
    rw [Redex.operator_of_find? hfind]
    rcases List.mem_cons.1 (mem_of_mem_operators_sweep hop) with rfl | hmem
    · exact Nat.le_refl _
    · exact (List.pairwise_cons.1 h).1 op hmem

/-! ### A sweep and an evaluation that starts over -/

/-- Once the operators before some have been exhausted, sweeping the rest is rewriting until no
redex is left. -/
theorem sweep_eq_exhaust {before ops : List Operator} {cs : List Char}
    (horder : Operator.scanOrder = before ++ ops) (hcs : NoDoubleMinus cs)
    (hbefore : ∀ p ∈ before, Redex.find? p cs = none) : sweep ops cs = exhaust cs := by
  fun_induction sweep ops cs generalizing before with
  | case1 cs =>
    rw [List.append_nil] at horder
    rw [exhaust_of_none (Redex.first?_eq_none_iff.2 fun op ↦
      hbefore op (horder ▸ op.mem_scanOrder))]
  | case2 op ops cs hfind ih =>
    have horder' : Operator.scanOrder = (before ++ [op]) ++ ops := by simp [horder]
    refine ih horder' hcs fun p hp ↦ ?_
    rcases List.mem_append.1 hp with hp | hp
    · exact hbefore p hp
    · rw [List.mem_singleton.1 hp, hfind]
  | case3 op ops cs redex hfind error hvalue =>
    obtain rfl := Redex.operator_of_find? hfind
    have hearlier := Operator.earlier_eq_of_append horder
    rw [exhaust_of_error (Redex.first?_eq_some_iff.2 ⟨hfind, hearlier ▸ hbefore⟩) hvalue]
  | case4 op ops cs redex hfind value hvalue ih =>
    obtain rfl := Redex.operator_of_find? hfind
    have hearlier := Operator.earlier_eq_of_append horder
    rw [exhaust_of_ok (Redex.first?_eq_some_iff.2 ⟨hfind, hearlier ▸ hbefore⟩) hvalue]
    congr 1
    -- a written number makes no operator occur again, so those that are exhausted stay so
    refine ih horder (Redex.noDoubleMinus_replace hfind hcs value) fun p hp ↦ ?_
    have hlast : p ≠ .difference := Operator.ne_difference_of_mem_earlier (hearlier ▸ hp)
    rw [Redex.find?_eq_none_iff]
    intro hoccurs
    exact Redex.find?_eq_none_iff.1 (hbefore p hp)
      (Redex.occurs_of_occurs_replace hfind hcs hlast hoccurs)

/-! ### The texts on the way -/

/-- A round leaves a text without two minus signs in a row. -/
theorem noDoubleMinus_of_rewrites {cs ds : List Char} (h : Rewrites cs ds)
    (hcs : NoDoubleMinus cs) : NoDoubleMinus ds := by
  obtain ⟨redex, value, hdue, -, rfl⟩ := h
  obtain ⟨op, hop⟩ := Redex.exists_find?_of_first? hdue
  exact Redex.noDoubleMinus_replace hop hcs value

/-- No text on the way has two minus signs in a row if the first has not. -/
theorem noDoubleMinus_of_mem_texts {cs ds : List Char} (hcs : NoDoubleMinus cs)
    (h : ds ∈ texts cs (exhaust cs)) : NoDoubleMinus ds :=
  forall_mem_texts (fun _ _ ↦ noDoubleMinus_of_rewrites) (isChain_rewrites_exhaust cs) hcs ds h

theorem bySweep_eq_ofText {cs : List Char} (hcs : NoDoubleMinus cs) : bySweep cs = ofText cs := by
  rw [bySweep]
  split
  · next inner hform => rw [ofText_of_some hform]
  · next hform =>
    have horder : Operator.scanOrder = [] ++ Operator.scanOrder := rfl
    rw [ofText_of_none hform, sweep_eq_exhaust horder hcs (by simp)]

/-- **Starting over is redundant without two minus signs in a row.** No text on the way has two
minus signs in a row; the operators are met in the order in which they are looked for; and one sweep
over the operators goes through the same rounds at the same places and ends in the same way. -/
theorem ofExpression_eq_bySweep {expression : String}
    (h : NoDoubleMinus (Text.dropBlanks expression.toList)) :
    (∀ ds ∈ texts (Text.dropBlanks expression.toList) (ofExpression expression),
      NoDoubleMinus ds) ∧
    (ofExpression expression).operators.Pairwise (·.position ≤ ·.position) ∧
    bySweep (Text.dropBlanks expression.toList) = ofExpression expression ∧
    (bySweep (Text.dropBlanks expression.toList)).result = evaluate expression := by
  have heq := bySweep_eq_ofText h
  refine ⟨fun ds hds ↦ ?_, ?_, heq, congrArg result heq⟩
  · rw [ofExpression] at hds
    cases hform : absoluteForm? (Text.dropBlanks expression.toList) with
    | some inner =>
      rw [ofText_of_some hform] at hds
      rwa [List.mem_singleton.1 hds]
    | none =>
      rw [ofText_of_none hform] at hds
      exact noDoubleMinus_of_mem_texts h hds
  · rw [ofExpression, ← heq, bySweep]
    split
    · exact .nil
    · exact pairwise_operators_sweep (by decide)

/-- A product in the middle comes first, and the operators before it are not gone back to. -/
theorem ofExpression_eq_bySweep_at_signed_product :
    NoDoubleMinus (Text.dropBlanks "2 - 3*-4 + 1".toList) ∧
      bySweep (Text.dropBlanks "2 - 3*-4 + 1".toList) = ofExpression "2 - 3*-4 + 1" ∧
      (ofExpression "2 - 3*-4 + 1").operators = [.product, .sum] := by
  have h : NoDoubleMinus (Text.dropBlanks "2 - 3*-4 + 1".toList) :=
    noDoubleMinus_iff_isChain.2 (by decide)
  exact ⟨h, (ofExpression_eq_bySweep h).2.2.1, by decide +kernel⟩

-- The minus sign before a positive result becomes a sign, and the product occurs after all.
example : (bySweep "3*--2/-2".toList).operators = [.quotient] ∧
    (ofExpression "3*--2/-2").operators = [.quotient, .product] := by decide +kernel

end Evaluation

end TextCalculator
