import TextCalculator.Proofs.Chain
import TextCalculator.Proofs.Occurrence

/-!
# The text of a chain

The redexes in the text of a chain are its pairs: for each operator the leftmost redex in the text
is the leftmost pair in the chain (`find?_text`), and replacing it is contracting the pair
(`replace_of_redex?`). An operand is always taken whole, since a redex that began inside of it would
have begun at its front.

The one thing that could go wrong is a binary minus sign that is taken for the sign of an operand on
its right. Where no other operator follows a difference, that operand is not the left one of a
redex that is looked for.
-/

namespace TextCalculator.Chain

open Operand

/-! ### Texts -/

/-- The text of a chain of texts. -/
def text : Chain (List Char) → List Char
  | term x => x
  | link x op rest => x ++ (op.symbol ++ rest.text)

/-- The text behind the first operand. -/
def tail : Chain (List Char) → List Char
  | term _ => []
  | link _ op rest => op.symbol ++ rest.text

/-- The text of a chain is its first operand and what follows. -/
theorem head_append_tail (c : Chain (List Char)) : c.head ++ c.tail = c.text := by
  cases c with
  | term x => exact List.append_nil x
  | link x op rest => rfl

/-- With another first operand, what follows is the same. -/
theorem text_setHead (ws : List Char) (c : Chain (List Char)) :
    (c.setHead ws).text = ws ++ c.tail := by
  cases c with
  | term x => exact (List.append_nil ws).symm
  | link x op rest => rfl

/-- The leftmost pair that an operator joins, as a redex of the text. -/
def redex? (op : Operator) : Chain (List Char) → Option Redex
  | term _ => none
  | link x p rest =>
    if p = op then some ⟨[], x, op, rest.head, rest.tail⟩
    else (rest.redex? op).map (Redex.within (x ++ p.symbol) [])

variable {op : Operator}

/-- The operands of the redex are the pair. -/
theorem pair?_eq (op : Operator) (c : Chain (List Char)) :
    c.pair? op = (c.redex? op).map fun r ↦ (r.left, r.right) := by
  induction c with
  | term x => rfl
  | link x p rest ih =>
    simp only [pair?, redex?]
    split
    · rfl
    · rw [ih, Option.map_map]
      rfl

/-- Replacing the redex is contracting the pair. -/
theorem replace_of_redex? {c : Chain (List Char)} {r : Redex} (h : c.redex? op = some r)
    (ws : List Char) : r.replace ws = (c.contract op ws).text := by
  induction c generalizing r with
  | term x => simp [redex?] at h
  | link x p rest ih =>
    by_cases hp : p = op
    · rw [redex?, if_pos hp] at h
      obtain rfl := Option.some.inj h
      rw [contract, if_pos hp, text_setHead]
      rfl
    · rw [redex?, if_neg hp] at h
      obtain ⟨r, hr, rfl⟩ := Option.map_eq_some_iff.1 h
      rw [contract, if_neg hp, Redex.replace_within, ih hr, text]
      simp

/-! ### Texts of operands -/

/-- The text of an operand. -/
abbrev OperandText : Type := {cs : List Char // IsOperand cs}

/-- The number that an operand is read as. -/
def OperandText.value (operand : OperandText) : Binary64 :=
  (Numeral.read? operand.1).get (by
    obtain ⟨x, hx⟩ := exists_read?_of_isOperand operand.2
    simp [hx])

theorem OperandText.read?_eq (operand : OperandText) :
    Numeral.read? operand.1 = some operand.value := (Option.some_get _).symm

/-- The texts of the operands. -/
abbrev texts (c : Chain OperandText) : Chain (List Char) := c.map Subtype.val

theorem texts_link (x : OperandText) (p : Operator) (rest : Chain OperandText) :
    (link x p rest).texts = link x.1 p rest.texts := rfl

/-- The numbers that the operands are read as. -/
abbrev values (c : Chain OperandText) : Chain Binary64 := c.map OperandText.value

theorem isOperand_head (c : Chain OperandText) : IsOperand c.texts.head := by
  rw [head_map]
  exact c.head.2

theorem beginsOperand_text (c : Chain OperandText) : BeginsOperand c.texts.text := by
  rw [← head_append_tail]
  exact beginsOperand_append c.isOperand_head.beginsOperand _

/-- Nothing that follows an operand in a chain extends it, since it is an operator. -/
theorem noExtension_tail (c : Chain OperandText) : NoExtension c.texts.tail := by
  cases c with
  | term x => exact noExtension_nil
  | link x p rest => exact Redex.noExtension_symbol_append p _

/-! ### The leftmost redex -/

/-- No redex for an operator begins at an operand that stands before the first operator of a chain,
if that is another one. -/
theorem atFront?_append_tail {operand : List Char} (hoperand : IsOperand operand)
    (c : Chain OperandText) (hc : ∀ p ∈ c.operators, p ≠ op) :
    Redex.atFront? op (operand ++ c.texts.tail) = none := by
  cases c with
  | term x =>
    show Redex.atFront? op (operand ++ []) = none
    rw [List.append_nil]
    exact Redex.atFront?_eq_none_of_isOperand hoperand
  | link x p rest =>
    exact Redex.atFront?_eq_none_of_ne (hc p (by simp [operators])) hoperand
      rest.beginsOperand_text

/-- No redex for an operator begins at a minus sign in front of a chain without that operator. -/
theorem atFront?_minus_cons_text (c : Chain OperandText) (hc : ∀ p ∈ c.operators, p ≠ op) :
    Redex.atFront? op ('-' :: c.texts.text) = none := by
  have hsigned : ∀ {operand : List Char}, IsOperand operand →
      Redex.atFront? op ('-' :: (operand ++ c.texts.tail)) = none := by
    rintro _ (hunsigned | hunsigned)
    · exact atFront?_append_tail (.minus hunsigned) c hc
    · apply Redex.atFront?_eq_none_of_not_beginsOperand
      rintro ⟨d, rest, hd, h | h⟩
      · obtain ⟨rfl, -⟩ := List.cons.inj h
        simp at hd
      · obtain ⟨rfl, -⟩ := List.cons.inj (List.cons.inj h).2
        simp at hd
  rw [← head_append_tail]
  exact hsigned c.isOperand_head

/-- No redex for an operator begins at another symbol, or inside of it. -/
theorem atFront?_symbol_part {p : Operator} {front part : List Char} {c : Chain OperandText}
    (hpart : p.symbol = front ++ part) (hne : part ≠ [])
    (hlast : p = .difference → ∀ q ∈ c.operators, q ≠ op) :
    Redex.atFront? op (part ++ c.texts.text) = none := by
  obtain ⟨a, part, rfl⟩ := List.exists_cons_of_ne_nil hne
  by_cases hp : p = .difference
  · subst hp
    obtain ⟨rfl, hsingle⟩ | ⟨-, hnil⟩ := List.singleton_eq_append_iff.1 hpart
    · rw [hsingle]
      exact atFront?_minus_cons_text c (hlast rfl)
    · simp at hnil
  · have hmem : a ∈ p.symbol := by simp [hpart]
    have hoperator := Operator.isOperatorChar_of_mem_symbol hmem
    apply Redex.atFront?_eq_none_of_not_beginsOperand
    refine not_beginsOperand_cons ?_ ?_
    · rw [← Bool.not_eq_true]
      intro hdigit
      rw [isOperatorChar_of_isDigit hdigit] at hoperator
      simp at hoperator
    · rintro rfl
      exact Operator.minus_not_mem_symbol hp hmem

/-- Where no redex begins at a whole operand, none begins inside of one. -/
theorem atFront?_part_append {cs front part : List Char} (hoperand : IsOperand (front ++ part))
    (hne : part ≠ [])
    (h : ∀ operand, IsOperand operand → Redex.atFront? op (operand ++ cs) = none) :
    Redex.atFront? op (part ++ cs) = none := by
  rcases hoperand.of_append_right hne with hpart | hpoint
  · exact h part hpart
  · obtain ⟨rest, rfl⟩ := List.head?_eq_some_iff.1 hpoint
    exact Redex.atFront?_eq_none_of_not_beginsOperand
      (not_beginsOperand_cons (by decide) (by decide))

/-- The leftmost redex for an operator in the text of a chain is the leftmost pair that it joins. -/
theorem find?_text {c : Chain OperandText} (hc : c.DifferencesLast) (op : Operator) :
    Redex.find? op c.texts.text = c.texts.redex? op := by
  induction c with
  | term x =>
    have hfind : Redex.find? op (x.1 ++ []) = (Redex.find? op []).map (Redex.within x.1 []) := by
      refine Redex.find?_append_of_forall fun front part hsplit hne ↦ ?_
      refine atFront?_part_append (hsplit ▸ x.2) hne fun operand hoperand ↦ ?_
      rw [List.append_nil]
      exact Redex.atFront?_eq_none_of_isOperand hoperand
    rw [List.append_nil] at hfind
    exact hfind
  | link x p rest ih =>
    rw [texts_link, text]
    by_cases hp : p = op
    · subst hp
      rw [redex?, if_pos rfl]
      refine Redex.find?_of_atFront? (Redex.atFront?_eq_some.2 ⟨rfl, rfl, ?_, ?_⟩)
      · rw [head_append_tail]
        exact split?_append x.2 (Redex.noExtension_symbol_append p _)
      · exact split?_append rest.isOperand_head rest.noExtension_tail
    · -- the pair is further on if no redex begins in the operand or in the symbol after it; a minus
      -- sign can begin one only for an operator that a chain with differences last has no more
      have hlast : p = .difference → ∀ q ∈ rest.operators, q ≠ op := by
        intro hdifference q hq heq
        exact hp (by rw [hdifference, ← heq, (List.pairwise_cons.1 hc).1 q hq hdifference])
      rw [redex?, if_neg hp, ← List.append_assoc, ← ih hc.rest]
      refine Redex.find?_append_of_forall fun front part hsplit hne ↦ ?_
      rcases List.append_eq_append_iff.1 hsplit with ⟨more, -, hsymbol⟩ | ⟨more, hx, rfl⟩
      · exact atFront?_symbol_part hsymbol hne hlast
      · rw [List.append_assoc]
        by_cases hmore : more = []
        · subst hmore
          exact atFront?_symbol_part (List.nil_append _).symm hne hlast
        · refine atFront?_part_append (hx ▸ x.2) hmore fun operand hoperand ↦ ?_
          exact Redex.atFront?_eq_none_of_ne hp hoperand rest.beginsOperand_text

end TextCalculator.Chain
