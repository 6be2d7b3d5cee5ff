import TextCalculator.Proofs.Irreducible
import TextCalculator.Proofs.Preference

/-!
# What a round rewrites

A round rewrites the operation that is due, and nothing else (`Evaluation.round_rewrites_due`).
Which one is due can be said without any search (`Redex.IsDue`): its operator is the first, in
scanning order, that the text contains an operation for; of the operations for this operator it
begins furthest left, and of those that begin there it is the longest.

Both "leftmost" and "longest" come from what an operator does to the operand before it: nothing that
could extend an operand can stand there, so the left operand of any operation is taken off whole
(`Redex.exists_atFront?`), and only the right one may be shorter than it could be
(`Operand.length_le_of_split?`). For the same reason an operation is an operator between two
operands in one way only (`Redex.eq_of_operation`).
-/

namespace TextCalculator

/-- Of two operators one is looked for before the other. -/
theorem Operator.eq_of_not_mem_earlier {p q : Operator} (h : p ∉ q.earlier) (h' : q ∉ p.earlier) :
    p = q := by
  revert h h'
  cases p <;> cases q <;> decide

/-! ### The longest operand -/

namespace Operand

open Numeral

theorem length_le_of_splitUnsigned? {part after operand rest : List Char} (hpart : IsUnsigned part)
    (h : splitUnsigned? (part ++ after) = some (operand, rest)) : part.length ≤ operand.length := by
  obtain ⟨more, back, rfl, hmore, hback⟩ := exists_digits_append after
  cases hpart with
  | whole hds =>
    have hlonger : IsDigits (part ++ more) :=
      ⟨by simp [hds.1], List.forall_mem_append.2 ⟨hds.2, hmore⟩⟩
    obtain ⟨best, -, hsplit⟩ := exists_fractionWays hlonger hback
    rw [← List.append_assoc, hsplit] at h
    obtain ⟨rfl, -⟩ := Prod.mk.inj (Option.some.inj h)
    simp only [List.length_append]
    omega
  | @point ds es hds hes =>
    have hlonger : IsDigits (es ++ more) :=
      ⟨by simp [hes.1], List.forall_mem_append.2 ⟨hes.2, hmore⟩⟩
    have htext : ds ++ '.' :: es ++ (more ++ back) = ds ++ '.' :: (es ++ more) ++ back := by simp
    rw [htext, splitUnsigned?_point hds hlonger hback] at h
    obtain ⟨rfl, -⟩ := Prod.mk.inj (Option.some.inj h)
    simp

/-- No operand at the front of a text is longer than the one that is taken off. -/
theorem length_le_of_split? {part after operand rest : List Char} (hpart : IsOperand part)
    (h : split? (part ++ after) = some (operand, rest)) : part.length ≤ operand.length := by
  cases hpart with
  | unsigned hpart =>
    obtain ⟨d, ds, rfl, hd⟩ := hpart.exists_cons
    rw [List.cons_append, split?_of_digit hd] at h
    exact length_le_of_splitUnsigned? hpart h
  | minus hpart =>
    rw [List.cons_append, split?_minus_cons] at h
    obtain ⟨⟨unsigned, rest⟩, hsplit, hoperand⟩ := Option.map_eq_some_iff.1 h
    obtain ⟨rfl, -⟩ := Prod.mk.inj hoperand
    exact Nat.succ_le_succ (length_le_of_splitUnsigned? hpart hsplit)

end Operand

namespace Redex

open Operand

variable {op : Operator} {cs : List Char} {r r' : Redex}

/-! ### Operations -/

/-- A text that is an operation: two operands with the symbol of the operator in between. -/
def IsOperation (op : Operator) (m : List Char) : Prop :=
  ∃ left right, IsOperand left ∧ IsOperand right ∧ m = left ++ (op.symbol ++ right)

/-- An operator that stands between operands is in an operation, which is a part of the text. -/
theorem contains_iff : Contains op cs ↔ ∃ m, IsOperation op m ∧ m <:+: cs := by
  constructor
  · rintro ⟨left, right, hleft, hright, hcs⟩
    exact ⟨_, ⟨left, right, hleft, hright, rfl⟩, hcs⟩
  · rintro ⟨m, ⟨left, right, hleft, hright, rfl⟩, hcs⟩
    exact ⟨left, right, hleft, hright, hcs⟩

/-- An operation is an operator between two operands in one way only. -/
theorem eq_of_operation {op op' : Operator} {left left' right right' : List Char}
    (hleft : IsOperand left) (hright : IsOperand right) (hleft' : IsOperand left')
    (hright' : IsOperand right')
    (h : left ++ (op.symbol ++ right) = left' ++ (op'.symbol ++ right')) :
    op = op' ∧ left = left' ∧ right = right' := by
  have hsplit := split?_append hleft (noExtension_symbol_append op right)
  rw [h, split?_append hleft' (noExtension_symbol_append op' right')] at hsplit
  obtain ⟨rfl, hrest⟩ := Prod.mk.inj (Option.some.inj hsplit)
  obtain rfl := eq_of_symbol_append hright'.beginsOperand hright.beginsOperand hrest
  exact ⟨rfl, rfl, (List.append_cancel_left hrest).symm⟩

/-- Where an operation begins a redex is found, and the operation is not longer. -/
theorem exists_atFront? {m : List Char} (hm : IsOperation op m) (after : List Char) :
    ∃ r, atFront? op (m ++ after) = some r ∧ m.length ≤ r.matched.length := by
  obtain ⟨left, right, hleft, hright, rfl⟩ := hm
  have hbegins := beginsOperand_append hright.beginsOperand after
  obtain ⟨⟨operand, rest⟩, hsplit⟩ := Option.ne_none_iff_exists'.1 (split?_ne_none_iff.2 hbegins)
  have htext := append_of_split? hsplit
  refine ⟨⟨[], left, op, operand, rest⟩, atFront?_eq_some.2 ⟨rfl, rfl, ?_, by rwa [htext]⟩, ?_⟩
  · rw [htext, List.append_assoc, List.append_assoc]
    exact split?_append hleft (noExtension_symbol_append op _)
  · have hlength := length_le_of_split? hright hsplit
    simp only [matched, List.length_append]
    omega

/-- No operation begins further left than the redex that is found. -/
theorem length_before_le {before m after : List Char} (h : find? op cs = some r)
    (hm : IsOperation op m) (hcs : cs = before ++ m ++ after) :
    r.before.length ≤ before.length := by
  by_contra hlt
  rw [text_eq_of_find? h, List.append_assoc] at hcs
  obtain ⟨rest, hbefore, hrest⟩ : ∃ rest, r.before = before ++ rest ∧
      m ++ after = rest ++ (r.matched ++ r.after) := by
    rcases List.append_eq_append_iff.1 hcs with ⟨rest, rfl, -⟩ | ⟨rest, hbefore, hrest⟩
    · exact absurd (by simp) hlt
    · exact ⟨rest, hbefore, hrest⟩
  have hne : rest ≠ [] := by
    rintro rfl
    exact hlt (by simp [hbefore])
  obtain ⟨r', hfront, -⟩ := exists_atFront? hm after
  have hnone := atFront?_eq_none_of_find? h hbefore hne
  rw [List.append_assoc, ← hrest, hfront] at hnone
  exact nomatch hnone

/-- No operation that begins with the redex that is found is longer. -/
theorem length_le_matched {m after : List Char} (h : find? op cs = some r) (hm : IsOperation op m)
    (hcs : cs = r.before ++ m ++ after) : m.length ≤ r.matched.length := by
  rw [text_eq_of_find? h, List.append_assoc] at hcs
  obtain ⟨r', hfront, hlength⟩ := exists_atFront? hm after
  rw [← List.append_cancel_left hcs, atFront?_of_find? h] at hfront
  obtain rfl := Option.some.inj hfront
  exact hlength

/-! ### The operation that is due -/

/-- A redex is the operation that is due in a text. -/
structure IsDue (cs : List Char) (r : Redex) : Prop where
  /-- It divides the text. -/
  text_eq : cs = r.before ++ r.matched ++ r.after
  /-- On the left of the operator there is an operand. -/
  left : IsOperand r.left
  /-- On the right of the operator there is an operand. -/
  right : IsOperand r.right
  /-- There is no operation for an operator that is looked for earlier. -/
  earliest : ∀ op ∈ r.operator.earlier, ¬Contains op cs
  /-- No operation for the operator begins further left. -/
  leftmost : ∀ before m after, IsOperation r.operator m → cs = before ++ m ++ after →
    r.before.length ≤ before.length
  /-- No operation for the operator that begins at the same place is longer. -/
  longest : ∀ m after, IsOperation r.operator m → cs = r.before ++ m ++ after →
    m.length ≤ r.matched.length

/-- What the search finds is due. -/
theorem isDue_of_first? (h : first? cs = some r) : IsDue cs r := by
  obtain ⟨hfind, hearlier⟩ := first?_eq_some_iff.1 h
  exact {
    text_eq := by rw [List.append_assoc]; exact text_eq_of_find? hfind
    left := isOperand_left hfind
    right := isOperand_right hfind
    earliest := fun op hop ↦ find?_eq_none_iff_not_contains.1 (hearlier op hop)
    leftmost := fun before m after hm ↦ length_before_le hfind hm
    longest := fun m after hm ↦ length_le_matched hfind hm }

namespace IsDue

theorem isOperation (h : IsDue cs r) : IsOperation r.operator r.matched :=
  ⟨r.left, r.right, h.left, h.right, by rw [matched, List.append_assoc]⟩

theorem contains (h : IsDue cs r) : Contains r.operator cs :=
  contains_iff.2 ⟨r.matched, h.isOperation, r.before, r.after, h.text_eq.symm⟩

/-- One operation is due. -/
theorem unique (h : IsDue cs r) (h' : IsDue cs r') : r = r' := by
  have hop : r.operator = r'.operator := Operator.eq_of_not_mem_earlier
    (fun hmem ↦ h'.earliest _ hmem h.contains) (fun hmem ↦ h.earliest _ hmem h'.contains)
  have hstart : r.before.length = r'.before.length :=
    Nat.le_antisymm (h.leftmost _ _ _ (hop ▸ h'.isOperation) h'.text_eq)
      (h'.leftmost _ _ _ (hop ▸ h.isOperation) h.text_eq)
  have htext := h.text_eq.symm.trans h'.text_eq
  rw [List.append_assoc, List.append_assoc] at htext
  obtain ⟨hbefore, hrest⟩ := List.append_inj htext hstart
  have hend : r.matched.length = r'.matched.length :=
    Nat.le_antisymm (h'.longest _ _ (hop ▸ h.isOperation) (hbefore ▸ h.text_eq))
      (h.longest _ _ (hop ▸ h'.isOperation) (hbefore ▸ h'.text_eq))
  obtain ⟨hmatched, hafter⟩ := List.append_inj hrest hend
  simp only [matched, List.append_assoc] at hmatched
  obtain ⟨-, hleft, hright⟩ := eq_of_operation h.left h.right h'.left h'.right hmatched
  rcases r with ⟨before, left, op, right, after⟩
  rcases r' with ⟨before', left', op', right', after'⟩
  simp_all only

end IsDue

/-- The redex that the search comes to is the operation that is due. -/
theorem first?_eq_some_iff_isDue : first? cs = some r ↔ IsDue cs r := by
  constructor
  · exact isDue_of_first?
  · intro h
    rcases hfirst : first? cs with - | r'
    · exact absurd h.contains (first?_eq_none_iff_not_contains.1 hfirst _)
    · rw [h.unique (isDue_of_first? hfirst)]

end Redex

/-! ### One round -/

namespace Evaluation

/-- The text after one round, if an operation is due. -/
def next? (cs : List Char) : Except EvalError (Option (List Char)) :=
  match Redex.first? cs with
  | none => .ok none
  | some redex => redex.value.map fun value ↦ some (redex.replace (Numeral.write value))

theorem next?_eq_none_iff {cs : List Char} : next? cs = .ok none ↔ Redex.first? cs = none := by
  rw [next?]
  rcases Redex.first? cs with - | redex
  · simp
  · rcases hvalue : redex.value with e | value <;> simp [Except.map, hvalue]

/-- A text has a next one exactly if a round rewrites it. -/
theorem next?_eq_some_iff {cs ds : List Char} : next? cs = .ok (some ds) ↔ Rewrites cs ds := by
  rw [next?, Rewrites]
  rcases Redex.first? cs with - | redex
  · simp
  · rcases hvalue : redex.value with e | value <;> simp [Except.map, hvalue, eq_comm]

/-- An evaluation goes from each text to the next one, until there is none. -/
theorem isChain_next?_ofText (cs : List Char) :
    (texts cs (ofText cs)).IsChain (fun cs ds ↦ next? cs = .ok (some ds)) ∧
      ∃ last, (texts cs (ofText cs)).getLast? = some last ∧
        (absoluteForm? last = none → ∀ ds, next? last ≠ .ok (some ds)) := by
  refine ⟨(isChain_rewrites_ofText cs).imp fun _ _ ↦ next?_eq_some_iff.2, ?_⟩
  obtain ⟨last, hlast, hends⟩ := endsAt_ofText cs
  refine ⟨last, hlast, fun hform ds hnext ↦ ?_⟩
  obtain ⟨redex, value, hdue, hvalue, -⟩ := next?_eq_some_iff.1 hnext
  generalize (ofText cs).ending = ending at hends
  cases hends with
  | absolute habsolute => exact nomatch hform.symm.trans habsolute
  | normal _ hnone => exact nomatch hnone.symm.trans hdue
  | failed hfailed herror =>
    obtain rfl := Option.some.inj (hdue.symm.trans hfailed)
    exact nomatch hvalue.symm.trans herror

/-- **A round rewrites the operation that is due, and nothing else.** The operation is looked for
operator by operator, by matching in the order of preference. No round takes place exactly if the
text contains no operation. Otherwise one operation is due, and it is an operator between two
operands in one way only. Both operands are numbers; and unless the operator has no value there, the
round puts the written value in the place of the operation. -/
theorem round_rewrites_due (cs : List Char) :
    Redex.first? cs = Operator.scanOrder.findSome? (Redex.firstWay? · cs) ∧
    (next? cs = .ok none ↔ ∀ op, ¬Redex.Contains op cs) ∧
    ((∃ op, Redex.Contains op cs) → ∃ r, Redex.IsDue cs r ∧ (∀ r', Redex.IsDue cs r' → r = r') ∧
      (∀ op left right, Operand.IsOperand left → Operand.IsOperand right →
        r.matched = left ++ (op.symbol ++ right) →
          r.operator = op ∧ r.left = left ∧ r.right = right) ∧
      ∃ x y, Numeral.read? r.left = some x ∧ Numeral.read? r.right = some y ∧
        next? cs = (r.operator.apply x y).map fun value ↦
          some (r.before ++ Numeral.write value ++ r.after)) := by
  refine ⟨?_, ?_, ?_⟩
  · rw [Redex.first?, funext (Redex.find?_eq_firstWay? · cs)]
  · rw [next?_eq_none_iff, Redex.first?_eq_none_iff_not_contains]
  · rintro ⟨op, hop⟩
    obtain ⟨r, hdue⟩ : ∃ r, Redex.first? cs = some r := Option.ne_none_iff_exists'.1 fun hnone ↦
      Redex.first?_eq_none_iff_not_contains.1 hnone op hop
    have h := Redex.isDue_of_first? hdue
    refine ⟨r, h, fun r' ↦ h.unique, fun op left right hleft hright hmatched ↦ ?_, ?_⟩
    · rw [Redex.matched, List.append_assoc] at hmatched
      exact Redex.eq_of_operation h.left h.right hleft hright hmatched
    · obtain ⟨op, hfind⟩ := Redex.exists_find?_of_first? hdue
      obtain ⟨x, y, hx, hy, hvalue⟩ := Redex.exists_value_eq hfind
      refine ⟨x, y, hx, hy, ?_⟩
      rw [next?, hdue]
      simp only [hvalue]
      rfl

/-- The product is due, between the numbers that are nearest to its symbol. -/
theorem round_rewrites_due_at_points :
    let cs := "1.2.3*4.5.6".toList
    let r : Redex := ⟨"1.".toList, "2.3".toList, .product, "4.5".toList, ".6".toList⟩
    Redex.Contains .product cs ∧ Redex.IsDue cs r ∧
      next? cs = .ok (some "1.10.35.6".toList) ∧
      ∀ left right, Operand.IsOperand left → Operand.IsOperand right →
        "2.3*4.5".toList = left ++ ('*' :: right) → left = "2.3".toList ∧ right = "4.5".toList := by
  intro cs r
  have hdue : Redex.IsDue cs r := Redex.first?_eq_some_iff_isDue.1 (by decide +kernel)
  obtain ⟨-, -, hround⟩ := round_rewrites_due cs
  obtain ⟨r', hdue', -, hsplit, -⟩ := hround ⟨.product, hdue.contains⟩
  obtain rfl := hdue.unique hdue'
  refine ⟨hdue.contains, hdue, by decide +kernel, fun left right hleft hright hmatched ↦ ?_⟩
  obtain ⟨-, rfl, rfl⟩ := hsplit .product left right hleft hright hmatched
  exact ⟨rfl, rfl⟩

end Evaluation

end TextCalculator
