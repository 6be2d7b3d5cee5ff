import TextCalculator.Expression.Operand
import TextCalculator.Expression.Seam

/-!
# Redexes

A redex is an operation found in a text: an operator between two operands, with what stands before
and after it. `find?` finds the leftmost one for an operator, `first?` the one for the first
operator, in scanning order, that has any.

## What being leftmost gives

`text_of_find?` says that a redex is a way of dividing the text. `sign_of_find?` says that a digit
stands right before a redex only if the redex begins with a minus sign: without that sign the digit
would belong to the left operand, and the redex would have been found further left.
-/

namespace TextCalculator

/-- An operation in a text. -/
structure Redex where
  /-- The text before the operation. -/
  before : List Char
  /-- The left operand. -/
  left : List Char
  /-- The operator. -/
  operator : Operator
  /-- The right operand. -/
  right : List Char
  /-- The text after the operation. -/
  after : List Char
deriving DecidableEq

namespace Redex

/-- The operation itself. -/
def matched (r : Redex) : List Char := r.left ++ r.operator.symbol ++ r.right

/-- The whole text with something in place of the operation. -/
def replace (r : Redex) (cs : List Char) : List Char := r.before ++ cs ++ r.after

/-- The whole text. -/
def text (r : Redex) : List Char := r.replace r.matched

/-- The redex with one more character before it. -/
def shift (c : Char) (r : Redex) : Redex := { r with before := c :: r.before }

/-! ### Finding a redex -/

/-- What follows a word at the front of a text. -/
def dropWord? : List Char → List Char → Option (List Char)
  | [], cs => some cs
  | _ :: _, [] => none
  | w :: ws, c :: cs => if w = c then dropWord? ws cs else none

/-- What is left after a word is what comes after it. -/
theorem dropWord?_eq_some {word cs rest : List Char} :
    dropWord? word cs = some rest ↔ word ++ rest = cs := by
  fun_induction dropWord? word cs <;> simp_all [eq_comm]

/-- The redex for an operator at the front of a text. -/
def atFront? (op : Operator) (cs : List Char) : Option Redex :=
  match Operand.split? cs with
  | none => none
  | some (left, afterLeft) =>
    match dropWord? op.symbol afterLeft with
    | none => none
    | some afterOperator =>
      match Operand.split? afterOperator with
      | none => none
      | some (right, after) => some ⟨[], left, op, right, after⟩

/-- The leftmost redex for an operator. -/
def find? (op : Operator) : List Char → Option Redex
  | [] => none
  | c :: cs =>
    match atFront? op (c :: cs) with
    | some r => some r
    | none => (find? op cs).map (shift c)

/-- The redex that is due: the leftmost one for the first operator that has any. -/
def first? (cs : List Char) : Option Redex := Operator.scanOrder.findSome? (find? · cs)

/-! ### Redexes at the front -/

/-- How a redex at the front of a text comes about. -/
theorem atFront?_eq_some {op : Operator} {cs : List Char} {r : Redex} :
    atFront? op cs = some r ↔
      r.before = [] ∧ r.operator = op ∧
        Operand.split? cs = some (r.left, op.symbol ++ (r.right ++ r.after)) ∧
        Operand.split? (r.right ++ r.after) = some (r.right, r.after) := by
  constructor
  · intro h
    simp only [atFront?] at h
    split at h
    · simp at h
    next left afterLeft hleft =>
    split at h
    · simp at h
    next afterOperator hop =>
    split at h
    · simp at h
    next right after hright =>
    obtain rfl := by simpa using h
    have := Operand.append_of_split? hright
    simp only at this ⊢
    rw [this, dropWord?_eq_some.1 hop]
    exact ⟨trivial, trivial, hleft, hright⟩
  · rintro ⟨hbefore, rfl, hleft, hright⟩
    simp only [atFront?, hleft, dropWord?_eq_some.2 rfl, hright]
    rw [← hbefore]

theorem text_of_atFront? {op : Operator} {cs : List Char} {r : Redex}
    (h : atFront? op cs = some r) : r.text = cs := by
  obtain ⟨hbefore, rfl, hleft, -⟩ := atFront?_eq_some.1 h
  rw [← Operand.append_of_split? hleft]
  simp [text, replace, matched, hbefore]

/-- A digit in front of a redex extends it, unless it begins with a minus sign. -/
theorem atFront?_cons_ne_none {op : Operator} {cs : List Char} {d : Char} (hd : d.isDigit = true)
    (hsign : cs.head? ≠ some '-') (h : atFront? op cs ≠ none) : atFront? op (d :: cs) ≠ none := by
  obtain ⟨r, hr⟩ := Option.ne_none_iff_exists'.1 h
  obtain ⟨-, hop, hleft, hright⟩ := atFront?_eq_some.1 hr
  have longer : atFront? op (d :: cs) = some { r with before := [], left := d :: r.left } :=
    atFront?_eq_some.2 ⟨rfl, hop, Operand.split?_cons hd hsign hleft, hright⟩
  simp [longer]

/-! ### The leftmost redex -/

theorem text_shift (c : Char) (r : Redex) : (r.shift c).text = c :: r.text := rfl

/-- A redex that is found is a redex of this text. -/
theorem text_of_find? {op : Operator} {cs : List Char} {r : Redex} (h : find? op cs = some r) :
    r.text = cs := by
  induction cs generalizing r with
  | nil => simp [find?] at h
  | cons c cs ih =>
    simp only [find?] at h
    split at h
    · next hfront =>
      obtain rfl := by simpa using h
      exact text_of_atFront? hfront
    · obtain ⟨r, hr, rfl⟩ := Option.map_eq_some_iff.1 h
      rw [text_shift, ih hr]

/-- The redex found is a redex at the front of what is left when the text before it is skipped. -/
theorem atFront?_of_find? {op : Operator} {cs : List Char} {r : Redex} (h : find? op cs = some r) :
    atFront? op (r.matched ++ r.after) = some { r with before := [] } := by
  induction cs generalizing r with
  | nil => simp [find?] at h
  | cons c cs ih =>
    simp only [find?] at h
    split at h
    · next hfront =>
      obtain rfl := by simpa using h
      have hbefore := (atFront?_eq_some.1 hfront).1
      have htext := text_of_atFront? hfront
      rw [text, replace, hbefore, List.nil_append] at htext
      rw [htext, hfront, ← hbefore]
    · obtain ⟨r, hr, rfl⟩ := Option.map_eq_some_iff.1 h
      have found := ih hr
      exact found

/-- No redex begins further left than the one found. -/
theorem atFront?_eq_none_of_find? {op : Operator} {cs : List Char} {r : Redex}
    (h : find? op cs = some r) {skipped rest : List Char} (hbefore : r.before = skipped ++ rest)
    (hrest : rest ≠ []) : atFront? op (rest ++ r.matched ++ r.after) = none := by
  induction cs generalizing r skipped with
  | nil => simp [find?] at h
  | cons c cs ih =>
    simp only [find?] at h
    split at h
    · next hfront =>
      obtain rfl := by simpa using h
      rw [(atFront?_eq_some.1 hfront).1] at hbefore
      exact absurd (List.append_eq_nil_iff.1 hbefore.symm).2 hrest
    · next hfront =>
      obtain ⟨r, hr, rfl⟩ := Option.map_eq_some_iff.1 h
      cases skipped with
      | nil =>
        obtain rfl : c :: r.before = rest := hbefore
        have htext := text_of_find? hr
        rw [text, replace] at htext
        exact (congrArg (atFront? op) (congrArg (c :: ·) htext)).trans hfront
      | cons s skipped =>
        have passed := ih hr (List.cons.inj hbefore).2
        exact passed

/-- A digit stands right before the leftmost redex only if the redex begins with a minus sign. -/
theorem sign_of_find? {op : Operator} {cs : List Char} {r : Redex} (h : find? op cs = some r)
    {d : Char} (hlast : r.before.getLast? = some d) (hd : d.isDigit = true) :
    (r.matched ++ r.after).head? = some '-' := by
  apply Classical.byContradiction
  intro hsign
  obtain ⟨skipped, hskipped⟩ := List.getLast?_eq_some_iff.1 hlast
  have none := atFront?_eq_none_of_find? h hskipped (by simp)
  refine atFront?_cons_ne_none hd hsign ?_ (by simpa using none)
  simp [atFront?_of_find? h]

theorem operator_of_find? {op : Operator} {cs : List Char} {r : Redex} (h : find? op cs = some r) :
    r.operator = op := (atFront?_eq_some.1 (atFront?_of_find? h)).2.1

/-! ### The redex that is due -/

theorem exists_find?_of_first? {cs : List Char} {r : Redex} (h : first? cs = some r) :
    ∃ op, find? op cs = some r := by
  obtain ⟨op, -, hop⟩ := List.exists_of_findSome?_eq_some h
  exact ⟨op, hop⟩

/-! ### Seams around a redex -/

/-- Putting a text without seams in place of a leftmost redex leaves fewer seams. -/
theorem seams_replace_lt {op : Operator} {cs ws : List Char} {r : Redex} (h : find? op cs = some r)
    (hne : ws ≠ []) (hws : seams ws = 0) : seams (r.replace ws) < seams cs := by
  obtain ⟨-, hop, hleft, hright⟩ := atFront?_eq_some.1 (atFront?_of_find? h)
  obtain ⟨leftInit, d, hl, hd⟩ := Operand.exists_digit_of_split? hleft
  obtain ⟨rightInit, e, hr, he⟩ := Operand.exists_digit_of_split? hright
  simp only at hl hr
  have matchedNe : r.matched ≠ [] := by simp [matched, hl]
  -- the seam between the left operand and the operator is lost
  have within : 1 ≤ seams r.matched := by
    rw [matched, List.append_assoc, seams_append, hl,
      meetingSeam_append_right r.operator.symbol_ne_nil]
    have : meetingSeam (leftInit ++ [d]) r.operator.symbol = 1 := by
      rw [meetingSeam, List.getLast?_append, List.getLast?_singleton, Option.some_or]
      cases r.operator <;> simp [Operator.symbol, seam, hd, isOperatorChar]
    omega
  -- and there is no new one at either end: the redex ends with a digit, and a digit in front of it
  -- would have been taken into the operand if no minus sign stood between
  have behind : meetingSeam ws r.after ≤ meetingSeam r.matched r.after := by
    rw [matched, hr, ← List.append_assoc]
    exact meetingSeam_le_of_digit he
  have ahead : meetingSeam r.before ws ≤ meetingSeam r.before r.matched := by
    cases hlast : r.before.getLast? with
    | none => simp [meetingSeam, hlast]
    | some c =>
      cases hc : c.isDigit with
      | false => cases hw : ws.head? <;> simp [meetingSeam, hlast, hw, seam, hc]
      | true =>
        have hsign := sign_of_find? h hlast hc
        rw [List.head?_append, Option.or_of_isSome (List.isSome_head?.2 matchedNe)] at hsign
        cases hw : ws.head? with
        | none => simp [meetingSeam, hw]
        | some w =>
          simp only [meetingSeam, hlast, hw, hsign, seam, hc, Bool.true_and]
          split <;> simp [isOperatorChar]
  rw [← text_of_find? h, text]
  simp only [replace, List.append_assoc, seams_append, meetingSeam_append_right hne,
    meetingSeam_append_right matchedNe]
  omega

end Redex

end TextCalculator
