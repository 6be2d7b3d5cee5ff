import TextCalculator.Proofs.Irreducible
import TextCalculator.Proofs.LiteralGrammar

/-!
# The balance of operators

A round takes the symbol of its operator out of the text. Apart from minus signs it takes no other
operator character, since operands have none, and it brings none, since written numbers have none
(`Redex.count_replace`). So at every point of an evaluation the operator characters of the text that
it began with are those that the rounds have taken and those that are still there
(`count_eq_consumed_add`).

An evaluation that gives a number ends with a number literal or with an absolute value, and neither
has an operator character but signs. All others have been taken by then, each by one round.
-/

namespace TextCalculator

/-- A round takes the symbol of its operator out of the text, and apart from minus signs it changes
the number of no other operator character. -/
theorem Redex.count_replace {op : Operator} {cs : List Char} {r : Redex} (h : find? op cs = some r)
    (x : Binary64) {c : Char} (hop : isOperatorChar c = true) (hc : c ≠ '-') :
    cs.count c = op.symbol.count c + (r.replace (Numeral.write x)).count c := by
  have hleft : r.left.count c = 0 :=
    List.count_eq_zero.2 fun hmem ↦ hc ((isOperand_left h).eq_minus_of_mem hmem hop)
  have hright : r.right.count c = 0 :=
    List.count_eq_zero.2 fun hmem ↦ hc ((isOperand_right h).eq_minus_of_mem hmem hop)
  have hwritten : (Numeral.write x).count c = 0 :=
    List.count_eq_zero.2 fun hmem ↦ hc ((Numeral.isWritten_write x).eq_minus_of_mem hmem hop)
  rw [text_eq_of_find? h, matched, replace, operator_of_find? h]
  simp only [List.count_append, hleft, hright, hwritten]
  omega

namespace Evaluation

/-! ### What rounds take -/

/-- How often rounds take a character as part of the symbols of their operators. -/
def consumed (c : Char) (rounds : List Round) : Nat :=
  (rounds.flatMap (·.redex.operator.symbol)).count c

/-- The number of rounds that compute an operator. -/
def roundsOf (op : Operator) (rounds : List Round) : Nat :=
  rounds.countP (·.redex.operator = op)

theorem consumed_cons (c : Char) (r : Round) (rounds : List Round) :
    consumed c (r :: rounds) = r.redex.operator.symbol.count c + consumed c rounds := by
  rw [consumed, List.flatMap_cons, List.count_append, consumed]

theorem roundsOf_cons (op : Operator) (r : Round) (rounds : List Round) :
    roundsOf op (r :: rounds) = roundsOf op rounds + if r.redex.operator = op then 1 else 0 := by
  rw [roundsOf, List.countP_cons]
  simp [roundsOf]

/-- A character of one symbol only, and once there, is taken once by each round of its operator. -/
theorem consumed_eq_roundsOf (op : Operator) {c : Char}
    (hsymbol : ∀ p : Operator, p.symbol.count c = if p = op then 1 else 0) (rounds : List Round) :
    consumed c rounds = roundsOf op rounds := by
  induction rounds with
  | nil => rfl
  | cons r rounds ih => rw [consumed_cons, roundsOf_cons, hsymbol, ih, Nat.add_comm]

/-- Slashes belong to two operators, and one of them has two. -/
theorem consumed_slash (rounds : List Round) : consumed '/' rounds =
    roundsOf .quotient rounds + 2 * roundsOf .wholeQuotient rounds := by
  have hsymbol : ∀ p : Operator, p.symbol.count '/' =
      (if p = .quotient then 1 else 0) + 2 * if p = .wholeQuotient then 1 else 0 := by
    intro p
    cases p <;> decide
  induction rounds with
  | nil => rfl
  | cons r rounds ih =>
    rw [consumed_cons, roundsOf_cons, roundsOf_cons, hsymbol, ih]
    omega

/-! ### At every point of an evaluation -/

variable {c : Char} {cs text : List Char} {k : Nat}

theorem count_of_rounds_eq_nil {e : Evaluation} (he : e.rounds = [])
    (htext : (texts cs e)[k]? = some text) :
    cs.count c = consumed c (e.rounds.take k) + text.count c := by
  rw [texts_of_rounds_eq_nil he] at htext
  obtain rfl := List.mem_singleton.1 (List.mem_of_getElem? htext)
  rw [he, List.take_nil]
  exact (Nat.zero_add _).symm

/-- The characters of a text are those that rounds have used up and those that are left. -/
theorem count_exhaust (hop : isOperatorChar c = true) (hc : c ≠ '-')
    (htext : (texts cs (exhaust cs))[k]? = some text) :
    cs.count c = consumed c ((exhaust cs).rounds.take k) + text.count c := by
  -- the induction is on the rounds, and `k` counts off those that are done
  induction cs using exhaust_induction generalizing k with
  | normal cs hdue => exact count_of_rounds_eq_nil (by rw [exhaust_of_none hdue]) htext
  | failed cs redex error hdue hvalue =>
    exact count_of_rounds_eq_nil (by rw [exhaust_of_error hdue hvalue]) htext
  | round cs redex value hdue hvalue ih =>
    rw [exhaust_of_ok hdue hvalue, texts_cons] at htext
    rw [exhaust_of_ok hdue hvalue]
    cases k with
    | zero =>
      obtain rfl := Option.some.inj htext
      exact (Nat.zero_add _).symm
    | succ k =>
      obtain ⟨op, hfind⟩ := Redex.exists_find?_of_first? hdue
      rw [Redex.count_replace hfind value hop hc, ih htext, ← Redex.operator_of_find? hfind,
        ← Nat.add_assoc]
      exact congrArg (· + text.count c) (consumed_cons c ⟨redex, value⟩ _).symm

/-- An operator character of the first text, if it is not a minus sign, has been taken by a round or
is still there. -/
theorem count_eq_consumed_add (hop : isOperatorChar c = true) (hc : c ≠ '-')
    (htext : (texts cs (ofText cs))[k]? = some text) :
    cs.count c = consumed c ((ofText cs).rounds.take k) + text.count c := by
  cases hform : absoluteForm? cs with
  | some inner => exact count_of_rounds_eq_nil (by rw [ofText_of_some hform]) htext
  | none =>
    rw [ofText_of_none hform] at htext ⊢
    exact count_exhaust hop hc htext

/-- Each operator character of a text, apart from minus signs, has been taken by one of the rounds
or is among those of another text. -/
structure Balanced (cs : List Char) (rounds : List Round) (text : List Char) : Prop where
  /-- Powers. -/
  power : cs.count '^' = roundsOf .power rounds + text.count '^'
  /-- Products. -/
  product : cs.count '*' = roundsOf .product rounds + text.count '*'
  /-- Quotients of both kinds; a whole one takes two slashes. -/
  quotients : cs.count '/' =
    roundsOf .quotient rounds + 2 * roundsOf .wholeQuotient rounds + text.count '/'
  /-- Remainders. -/
  remainder : cs.count '%' = roundsOf .remainder rounds + text.count '%'
  /-- Sums. -/
  sum : cs.count '+' = roundsOf .sum rounds + text.count '+'

/-- This holds of each text of a run, operator by operator. -/
theorem balanced_ofText (htext : (texts cs (ofText cs))[k]? = some text) :
    Balanced cs ((ofText cs).rounds.take k) text where
  power := by
    rw [count_eq_consumed_add (by decide) (by decide) htext,
      consumed_eq_roundsOf .power fun p ↦ by cases p <;> decide]
  product := by
    rw [count_eq_consumed_add (by decide) (by decide) htext,
      consumed_eq_roundsOf .product fun p ↦ by cases p <;> decide]
  quotients := by rw [count_eq_consumed_add (by decide) (by decide) htext, consumed_slash]
  remainder := by
    rw [count_eq_consumed_add (by decide) (by decide) htext,
      consumed_eq_roundsOf .remainder fun p ↦ by cases p <;> decide]
  sum := by
    rw [count_eq_consumed_add (by decide) (by decide) htext,
      consumed_eq_roundsOf .sum fun p ↦ by cases p <;> decide]

/-! ### At the end of an evaluation -/

/-- The last text, after all rounds. -/
theorem balanced_of_getLast? (hlast : (texts cs (ofText cs)).getLast? = some text) :
    Balanced cs (ofText cs).rounds text := by
  rw [List.getLast?_eq_getElem?] at hlast
  have hbalanced := balanced_ofText hlast
  rwa [List.take_of_length_le (by simp [texts])] at hbalanced

/-- What a number is read from at the end, a literal or an absolute value, has no operator character
but signs, and its plus signs are where a literal has them. -/
theorem signs_of_endsAt {ending : Ending} (hends : EndsAt cs ending) {x : Binary64}
    (hresult : ending.result = .ok x) :
    (∀ c ∈ cs, isOperatorChar c = true → c = '-' ∨ c = '+') ∧ cs.count '+' ≤ 2 ∧
      cs.IsChain Numeral.PlusAfterMark := by
  cases hends with
  | absolute hform =>
    have honly : ∀ c ∈ cs, isOperatorChar c = true → c = '-' := by
      intro c hc hop
      rcases mem_of_absoluteForm? hform hc with rfl | rfl | hdigit
      · exact absurd hop (by decide)
      · rfl
      · exact absurd hop (by simp [isOperatorChar_of_isDigit hdigit])
    have hplus : '+' ∉ cs := fun hmem ↦ absurd (honly '+' hmem (by decide)) (by decide)
    exact ⟨fun c hc hop ↦ .inl (honly c hc hop), by rw [List.count_eq_zero.2 hplus]; decide,
      Numeral.isChain_of_plus_not_mem hplus⟩
  | normal hform hdue =>
    have hliteral := Numeral.isLiteral_of_read? (Numeral.read_eq_ok_iff.1 hresult)
    exact ⟨fun c ↦ hliteral.eq_sign_of_mem, hliteral.plus_placed⟩
  | failed hdue hvalue => simp [Ending.result] at hresult

/-- **Operators balance.** At every point of an evaluation each `^`, `*`, `%` and `+` of the
expression has been taken by a round of its operator or is still in the text, and so has each `/`,
of which a whole quotient takes two. If the evaluation gives a number, the rounds have taken every
`^`, `*`, `/` and `%`, and at most two `+` are left, each of them in front or after the mark of an
exponent. -/
theorem operators_balance (expression : String) :
    (∀ (k : Nat) (text : List Char),
      (texts (Text.dropBlanks expression.toList) (ofExpression expression))[k]? = some text →
      Balanced (Text.dropBlanks expression.toList) ((ofExpression expression).rounds.take k)
        text) ∧
    ∀ x : Binary64, evaluate expression = .ok x →
      (Text.dropBlanks expression.toList).count '^' =
        roundsOf .power (ofExpression expression).rounds ∧
      (Text.dropBlanks expression.toList).count '*' =
        roundsOf .product (ofExpression expression).rounds ∧
      (Text.dropBlanks expression.toList).count '/' =
        roundsOf .quotient (ofExpression expression).rounds +
          2 * roundsOf .wholeQuotient (ofExpression expression).rounds ∧
      (Text.dropBlanks expression.toList).count '%' =
        roundsOf .remainder (ofExpression expression).rounds ∧
      ∃ last,
        (texts (Text.dropBlanks expression.toList)
          (ofExpression expression)).getLast? = some last ∧
        (Text.dropBlanks expression.toList).count '+' =
          roundsOf .sum (ofExpression expression).rounds + last.count '+' ∧
        last.count '+' ≤ 2 ∧ last.IsChain Numeral.PlusAfterMark := by
  refine ⟨fun k text ↦ balanced_ofText, fun x hx ↦ ?_⟩
  obtain ⟨last, hlast, hends⟩ := endsAt_ofText (Text.dropBlanks expression.toList)
  obtain ⟨hsigns, hplus, hchain⟩ := signs_of_endsAt hends hx
  have hbalanced := balanced_of_getLast? hlast
  -- the last text is a literal, so of the characters of operators it has signs only
  have hgone : ∀ c : Char, isOperatorChar c = true → c ≠ '-' → c ≠ '+' → last.count c = 0 :=
    fun c hop hminus hnotPlus ↦ List.count_eq_zero.2 fun hmem ↦
      (hsigns c hmem hop).elim hminus hnotPlus
  refine ⟨?_, ?_, ?_, ?_, last, hlast, hbalanced.sum, hplus, hchain⟩
  · exact hbalanced.power.trans (by rw [hgone '^' (by decide) (by decide) (by decide)]; rfl)
  · exact hbalanced.product.trans (by rw [hgone '*' (by decide) (by decide) (by decide)]; rfl)
  · exact hbalanced.quotients.trans (by rw [hgone '/' (by decide) (by decide) (by decide)]; rfl)
  · exact hbalanced.remainder.trans (by rw [hgone '%' (by decide) (by decide) (by decide)]; rfl)

/-- A product and a quotient are computed, and both plus signs are left. -/
theorem operators_balance_at_two_plus_signs :
    Balanced "+2*3/4E+1".toList ((ofExpression "+2*3 / 4E+1").rounds.take 1)
        "+6.0/4E+1".toList ∧
      evaluate "+2*3 / 4E+1" = .ok (.ofBits 0x402e000000000000) ∧
      roundsOf .product (ofExpression "+2*3 / 4E+1").rounds = 1 ∧
      roundsOf .quotient (ofExpression "+2*3 / 4E+1").rounds +
        2 * roundsOf .wholeQuotient (ofExpression "+2*3 / 4E+1").rounds = 1 ∧
      roundsOf .sum (ofExpression "+2*3 / 4E+1").rounds = 0 := by
  have hstripped : Text.dropBlanks "+2*3 / 4E+1".toList = "+2*3/4E+1".toList := by decide
  -- one computation gives all three, since the kernel evaluates the expression once for them
  have ⟨htext, hfifteen, hsum⟩ :
      (texts (Text.dropBlanks "+2*3 / 4E+1".toList) (ofExpression "+2*3 / 4E+1"))[1]? =
        some "+6.0/4E+1".toList ∧
      evaluate "+2*3 / 4E+1" = .ok (.ofBits 0x402e000000000000) ∧
      roundsOf .sum (ofExpression "+2*3 / 4E+1").rounds = 0 := by decide +kernel
  have hbalanced := (operators_balance "+2*3 / 4E+1").1 1 _ htext
  obtain ⟨-, hproduct, hquotients, -⟩ := (operators_balance "+2*3 / 4E+1").2 _ hfifteen
  rw [hstripped] at hbalanced hproduct hquotients
  exact ⟨hbalanced, hfifteen, hproduct.symm, hquotients.symm, hsum⟩

end Evaluation

end TextCalculator
