import TextCalculator.Proofs.ChainText
import TextCalculator.Proofs.Exhaustion

/-!
# Evaluating the text of a chain

Rewriting the text of a chain goes the way of its reduction, round by round. The redex that is due
is the pair that is contracted next (`first?_text`), and a result in plain notation is an operand
again, with the same number (`isOperand_write`). Only the last result may be in another notation:
nothing is left to be done with it but reading it.
-/

namespace TextCalculator

-- Powers of whole numbers are the built-in ones, also where a more general power is in scope.
attribute [local instance (2000)] instPowNat

open Operand

/-! ### Results that are operands -/

/-- Zero, or a magnitude from a thousandth up to, but not including, ten million. -/
def Binary64.InPlainRange : Binary64 → Prop
  | finite _ rank =>
    unitsOfRank rank = 0 ∨
      one ≤ unitsOfRank rank * 10 ^ (3 : Nat) ∧ unitsOfRank rank < 10 ^ (7 : Nat) * one
  | _ => False

instance : DecidablePred Binary64.InPlainRange
  | .nan => .isFalse id
  | .infinity _ => .isFalse id
  | .finite _ _ => inferInstanceAs (Decidable (_ ∨ _))

namespace Numeral

theorem isPlain_iff {format : NumberFormat} {rank : Nat} :
    isPlain format rank = true ↔
      Binary64.unitsOfRank rank = 0 ∨
        Binary64.one ≤ Binary64.unitsOfRank rank * 10 ^ format.plainDown ∧
          Binary64.unitsOfRank rank < 10 ^ format.plainUp * Binary64.one := decide_eq_true_iff

theorem isPlain_standard_iff {rank : Nat} :
    isPlain .standard rank = true ↔
      Binary64.unitsOfRank rank = 0 ∨
        Binary64.one ≤ Binary64.unitsOfRank rank * 10 ^ (3 : Nat) ∧
          Binary64.unitsOfRank rank < 10 ^ (7 : Nat) * Binary64.one := by
  rw [isPlain_iff, show NumberFormat.standard.plainDown = 3 from rfl,
    show NumberFormat.standard.plainUp = 7 from rfl]

/-- Plain notation has digits on both sides of a point. -/
theorem exists_plain_eq (d : Decimal) :
    ∃ ds es, IsDigits ds ∧ IsDigits es ∧ plain d = ds ++ '.' :: es := by
  obtain ⟨k, hk⟩ := isMagnitude_plain d
  generalize plain d = cs at hk ⊢
  generalize withZeros d k = shown at hk
  obtain @⟨ds, es, -, -, hds, hes, -⟩ := hk
  exact ⟨ds, es, hds, hes, by rw [List.append_nil]⟩

theorem isUnsigned_plain (d : Decimal) : IsUnsigned (plain d) := by
  obtain ⟨ds, es, hds, hes, hplain⟩ := exists_plain_eq d
  exact hplain ▸ .point hds hes

/-- In the range of plain notation, a written number is an operand. -/
theorem isOperand_write {x : Binary64} (h : x.InPlainRange) : IsOperand (write x) := by
  match x with
  | .nan => exact h.elim
  | .infinity _ => exact h.elim
  | .finite negative rank =>
    rw [write, writeIn, magnitude, if_pos (isPlain_standard_iff.2 h)]
    exact isOperand_signed negative (isUnsigned_plain _)

end Numeral

/-! ### No blanks and no bars -/

/-- A text that begins with an operand does not begin with a bar. -/
theorem absoluteForm?_of_beginsOperand {cs : List Char} (h : BeginsOperand cs) :
    absoluteForm? cs = none := by
  unfold absoluteForm?
  split
  · next rest =>
    obtain ⟨d, more, hd, hbar | hbar⟩ := h
    · obtain ⟨rfl, -⟩ := List.cons.inj hbar
      simp at hd
    · exact absurd (List.cons.inj hbar).1 (by decide)
  · rfl

namespace Chain

theorem isBlank_of_mem_text {c : Chain OperandText} {a : Char} (ha : a ∈ c.texts.text) :
    Text.isBlank a = false := by
  induction c with
  | term x => exact x.2.isBlank_of_mem ha
  | link x op rest ih =>
    rw [texts_link, text] at ha
    simp only [List.mem_append] at ha
    rcases ha with hx | hop | hrest
    · exact x.2.isBlank_of_mem hx
    · have hsymbol : (op.symbol.all fun a ↦ !Text.isBlank a) = true := by cases op <;> decide
      simpa using List.all_eq_true.1 hsymbol a hop
    · exact ih hrest

theorem dropBlanks_text (c : Chain OperandText) :
    Text.dropBlanks c.texts.text = c.texts.text :=
  Text.dropBlanks_eq_self fun _ ↦ isBlank_of_mem_text

/-! ### A round and a contraction -/

variable {c : Chain OperandText} {op : Operator}

/-- The operators before one do not occur, so the pair that it joins is the redex that is due. -/
theorem first?_text (hc : c.DifferencesLast) {before ops : List Operator}
    (horder : Operator.scanOrder = before ++ op :: ops) (hbefore : ∀ p ∈ before, p ∉ c.operators)
    {x y : OperandText} (hpair : c.pair? op = some (x, y)) :
    ∃ r, Redex.first? c.texts.text = some r ∧ r.value = op.apply x.value y.value ∧
      ∀ ws, r.replace ws = (c.texts.contract op ws).text := by
  have htexts : c.texts.pair? op = some (x.1, y.1) := by rw [pair?_map, hpair]; rfl
  rw [pair?_eq] at htexts
  obtain ⟨r, hr, hoperands⟩ := Option.map_eq_some_iff.1 htexts
  obtain ⟨hleft, hright⟩ := Prod.mk.inj hoperands
  have hfind : Redex.find? op c.texts.text = some r := (find?_text hc op).trans hr
  obtain rfl := Redex.operator_of_find? hfind
  refine ⟨r, Redex.first?_eq_some_iff.2 ⟨hfind, fun p hp ↦ ?_⟩, ?_, replace_of_redex? hr⟩
  · rw [Operator.earlier_eq_of_append horder] at hp
    rw [find?_text hc, ← Option.map_eq_none_iff, ← pair?_eq, pair?_eq_none_iff, operators_map]
    exact hbefore p hp
  · rw [Redex.value, hleft, hright, Numeral.read, Numeral.read, x.read?_eq, y.read?_eq]
    rfl

/-- The text of a number in the range of plain notation. -/
def OperandText.written {x : Binary64} (h : x.InPlainRange) : OperandText :=
  ⟨Numeral.write x, Numeral.isOperand_write h⟩

/-- A number in the plain range, written as an operand, is read back. -/
theorem OperandText.value_written {x : Binary64} (h : x.InPlainRange) :
    (OperandText.written h).value = x :=
  Option.some.inj ((OperandText.written h).read?_eq.symm.trans (Numeral.read?_write x))

/-- Nothing is left to be done with a written number but reading it. -/
theorem result_exhaust_write (x : Binary64) :
    (Evaluation.exhaust (Numeral.write x)).result = .ok x := by
  rw [Evaluation.exhaust_of_none (Redex.first?_eq_none_of_seams (Numeral.seams_write x))]
  exact Numeral.read_write x

/-- After the last contraction the result is left alone in the text. -/
theorem result_exhaust_contract {pair : OperandText × OperandText} (hpair : c.pair? op = some pair)
    (hsingle : c.operators.length = 1) (z : Binary64) (ops : List Operator) :
    (Evaluation.exhaust (c.texts.contract op (Numeral.write z)).text).result =
      (reduce ops (c.values.contract op z)).outcome := by
  have hterm : ∀ {α : Type} (f : OperandText → α) (a : α), (c.map f).contract op a = term a := by
    intro α f a
    have hjoined : (c.map f).pair? op = some (Prod.map f f pair) := by rw [pair?_map, hpair]; rfl
    exact contract_eq_term hjoined (by rwa [operators_map]) a
  rw [hterm, hterm, reduce_term]
  exact result_exhaust_write z

/-! ### The whole reduction -/

/-- Once the operators before some have been dealt with, reducing the chain by the rest is rewriting
its text until no redex is left. -/
theorem result_exhaust_text {v : Chain Binary64} (hv : c.values = v) (hc : c.DifferencesLast)
    {before ops : List Operator} (horder : Operator.scanOrder = before ++ ops)
    (hbefore : ∀ p ∈ before, p ∉ c.operators)
    (hplain : ∀ z ∈ (v.reduce ops).computed.take (c.operators.length - 1), z.InPlainRange) :
    (Evaluation.exhaust c.texts.text).result = (v.reduce ops).outcome := by
  fun_induction reduce ops v generalizing before c with
  | case1 v =>
    subst hv
    rw [List.append_nil] at horder
    cases c with
    | term x =>
      have hdue : Redex.first? x.1 = none :=
        Redex.first?_eq_none_iff.2 fun op ↦ find?_text (c := term x) hc op
      show (Evaluation.exhaust x.1).result = .ok x.value
      rw [Evaluation.exhaust_of_none hdue]
      show Numeral.read x.1 = _
      rw [Numeral.read, x.read?_eq]
    | link x op rest =>
      exact absurd List.mem_cons_self (hbefore op (horder ▸ op.mem_scanOrder))
  | case2 op ops v hpair ih =>
    subst hv
    rw [pair?_eq_none_iff, operators_map] at hpair
    have horder' : Operator.scanOrder = (before ++ [op]) ++ ops := by simp [horder]
    refine ih rfl hc horder' (fun p hp ↦ ?_) hplain
    rcases List.mem_append.1 hp with hp | hp
    · exact hbefore p hp
    · rwa [List.mem_singleton.1 hp]
  | case3 op ops v a b hpair error herror =>
    subst hv
    obtain ⟨x, y, hjoined, rfl, rfl⟩ := exists_of_pair?_map hpair
    obtain ⟨r, hdue, hvalue, -⟩ := first?_text hc horder hbefore hjoined
    rw [Evaluation.exhaust_of_error hdue (hvalue.trans herror)]
    rfl
  | case4 op ops v a b hpair z hz ih =>
    subst hv
    obtain ⟨x, y, hjoined, rfl, rfl⟩ := exists_of_pair?_map hpair
    obtain ⟨r, hdue, hvalue, hreplace⟩ := first?_text hc horder hbefore hjoined
    rw [Evaluation.exhaust_of_ok hdue (hvalue.trans hz), hreplace]
    show (Evaluation.exhaust _).result = (reduce (op :: ops) _).outcome
    by_cases hsingle : c.operators.length = 1
    · exact result_exhaust_contract hjoined hsingle z (op :: ops)
    · -- a result with more to come is in the range, so it is the text of an operand
      have hlength (w : OperandText) := length_operators_contract hjoined w
      obtain ⟨n, hn⟩ : ∃ n, c.operators.length - 1 = n + 1 :=
        ⟨c.operators.length - 2, by have := hlength x; omega⟩
      simp only [Reduction.cons, hn, List.take_succ_cons, List.forall_mem_cons] at hplain
      obtain ⟨w, htext, rfl⟩ : ∃ w : OperandText, w.1 = Numeral.write z ∧ w.value = z :=
        ⟨_, rfl, OperandText.value_written hplain.1⟩
      rw [← htext, contract_map]
      have hvalues := contract_map OperandText.value op w c
      refine ih hvalues.symm (hc.contract op w) horder (fun p hp hmem ↦ ?_) ?_
      · rw [operators_contract] at hmem
        exact hbefore p hp (List.mem_of_mem_erase hmem)
      · rw [show (c.contract op w).operators.length - 1 = n by have := hlength w; omega]
        exact hplain.2

/-- The text of one operation evaluates to what the operator makes of its two numbers. -/
theorem evaluate_link (x y : OperandText) (op : Operator) :
    evaluate (String.ofList (x.1 ++ (op.symbol ++ y.1))) = op.apply x.value y.value := by
  have hform := absoluteForm?_of_beginsOperand (link x op (term y)).beginsOperand_text
  have hlast : (link x op (term y)).DifferencesLast := List.pairwise_singleton _ _
  show evaluate (String.ofList (link x op (term y)).texts.text) = _
  rw [evaluate, Evaluation.ofExpression, String.toList_ofList, dropBlanks_text,
    Evaluation.ofText_of_none hform,
    result_exhaust_text rfl hlast (List.nil_append _).symm (by simp) (by simp [operators])]
  exact outcome_reduce_link op.mem_scanOrder x.value y.value

/-- **Rewriting a text is reducing a chain.** The text of a chain of operands, in which no operator
but the difference stands on the right of a difference, evaluates to what comes out of the reduction
of the chain of their numbers, provided that every number computed on the way is in the range of
plain notation. The number that finishes the chain may be any. -/
theorem evaluate_text {c : Chain OperandText} (hc : c.DifferencesLast)
    (hplain : ∀ z ∈ (c.values.reduce Operator.scanOrder).computed.take (c.operators.length - 1),
      z.InPlainRange) :
    evaluate (String.ofList c.texts.text) = (c.values.reduce Operator.scanOrder).outcome := by
  rw [evaluate, Evaluation.ofExpression, String.toList_ofList, dropBlanks_text,
    Evaluation.ofText_of_none (absoluteForm?_of_beginsOperand c.beginsOperand_text)]
  exact result_exhaust_text rfl hc (List.nil_append _).symm (by simp) hplain

/-- The chain `2*-3.5+4-1`. -/
def threeOperators : Chain OperandText :=
  link ⟨['2'], .unsigned (.whole (Numeral.isDigits_singleton (by decide)))⟩ .product
    (link ⟨['-', '3', '.', '5'], .minus (@IsUnsigned.point ['3'] ['5']
        (Numeral.isDigits_singleton (by decide)) (Numeral.isDigits_singleton (by decide)))⟩ .sum
      (link ⟨['4'], .unsigned (.whole (Numeral.isDigits_singleton (by decide)))⟩ .difference
        (term ⟨['1'], .unsigned (.whole (Numeral.isDigits_singleton (by decide)))⟩)))

/-- Two of the three results are written on the way. -/
theorem evaluate_text_at_threeOperators :
    threeOperators.DifferencesLast ∧
      (∀ z ∈ (threeOperators.values.reduce Operator.scanOrder).computed.take 2, z.InPlainRange) ∧
      evaluate "2*-3.5+4-1" = (threeOperators.values.reduce Operator.scanOrder).outcome := by
  have htext : threeOperators.texts.text = "2*-3.5+4-1".toList := by decide
  have hc : threeOperators.DifferencesLast := by
    show [Operator.product, .sum, .difference].Pairwise _
    decide
  have hplain : ∀ z ∈ (threeOperators.values.reduce Operator.scanOrder).computed.take 2,
      z.InPlainRange := by decide +kernel
  have heval := evaluate_text hc hplain
  rw [htext, String.ofList_toList] at heval
  exact ⟨hc, hplain, heval⟩

end Chain

end TextCalculator
