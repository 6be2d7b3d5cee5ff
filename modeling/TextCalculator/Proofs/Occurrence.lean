import TextCalculator.Expression.Redex
import TextCalculator.Proofs.Operand

/-!
# When an operator occurs in a text

Whether an operator has a redex can be seen right where it stands: there must be a digit before its
symbol and the beginning of an operand after it (`find?_ne_none_iff`). How far the operands reach
does not matter, which is what makes it possible to say how a round changes the redexes around it.

The redex that is due is the leftmost one for its operator, and no earlier operator occurs
(`first?_eq_some_iff`).
-/

namespace TextCalculator

namespace Operator

theorem earlier_eq_of_append {op : Operator} {before after : List Operator}
    (h : scanOrder = before ++ op :: after) : op.earlier = before := by
  have distinct : scanOrder.Nodup := by decide
  have notMem : ∀ a ∈ before, decide (a ≠ op) = true := by
    intro a ha
    rw [h, List.nodup_append] at distinct
    exact decide_eq_true (distinct.2.2 a ha op (by simp))
  rw [earlier, h, List.takeWhile_append_of_pos notMem, List.takeWhile_cons]
  simp

/-- The operators in order, around one of them. -/
theorem exists_scanOrder_eq (op : Operator) :
    ∃ after, scanOrder = op.earlier ++ op :: after := by
  obtain ⟨before, after, h⟩ := List.append_of_mem op.mem_scanOrder
  exact ⟨after, by rw [earlier_eq_of_append h, h]⟩

/-- A symbol begins with an operator character. -/
theorem exists_symbol_eq_cons (op : Operator) :
    ∃ c cs, op.symbol = c :: cs ∧ c.isDigit = false ∧ c ≠ '.' := by
  cases op <;> exact ⟨_, _, rfl, by decide, by decide⟩

theorem isOperatorChar_of_mem_symbol {op : Operator} {c : Char} (hc : c ∈ op.symbol) :
    isOperatorChar c = true := by
  cases op <;> simp only [Operator.symbol, List.mem_cons, List.not_mem_nil, or_false, or_self]
    at hc <;> rw [hc] <;> decide

/-- Only the difference is written with a minus sign. -/
theorem minus_not_mem_symbol {op : Operator} (hop : op ≠ .difference) : '-' ∉ op.symbol := by
  cases op <;> first | exact absurd rfl hop | decide

end Operator

/-- A word that shares no character with another stands wholly on one side of it. -/
theorem beside_of_disjoint {word other xs ys left right : List Char} (hword : word ≠ [])
    (hother : other ≠ []) (hdisjoint : ∀ c ∈ word, c ∉ other)
    (h : xs ++ (other ++ ys) = left ++ (word ++ right)) :
    (∃ zs, xs = left ++ (word ++ zs) ∧ right = zs ++ (other ++ ys)) ∨
      ∃ zs, left = xs ++ (other ++ zs) ∧ ys = zs ++ (word ++ right) := by
  obtain ⟨w, word', rfl⟩ := List.exists_cons_of_ne_nil hword
  obtain ⟨o, other', rfl⟩ := List.exists_cons_of_ne_nil hother
  rcases List.append_eq_append_iff.1 h with ⟨zs, rfl, hzs⟩ | ⟨zs, rfl, hzs⟩
  · rcases List.append_eq_append_iff.1 hzs with ⟨zs', rfl, hys⟩ | ⟨bs, hsplit, hbs⟩
    · exact .inr ⟨zs', rfl, hys⟩
    · cases bs with
      | nil => exact .inr ⟨[], by simp [hsplit], hbs.symm⟩
      | cons b bs =>
        obtain ⟨rfl, -⟩ := List.cons.inj hbs
        exact absurd (show w ∈ o :: other' by rw [hsplit]; simp) (hdisjoint w (by simp))
  · rcases List.append_eq_append_iff.1 hzs with ⟨zs', rfl, hright⟩ | ⟨bs, hsplit, hbs⟩
    · exact .inl ⟨zs', rfl, hright⟩
    · cases bs with
      | nil => exact .inl ⟨[], by simp [hsplit], hbs.symm⟩
      | cons b bs =>
        obtain ⟨rfl, -⟩ := List.cons.inj hbs
        exact absurd (show o ∈ o :: other' by simp) (hdisjoint o (by rw [hsplit]; simp))

namespace Redex

open Operand

/-! ### Redexes around a symbol -/

/-- A text with a digit at its end. -/
def EndsInDigit (cs : List Char) : Prop := ∃ d ∈ cs.getLast?, d.isDigit = true

theorem endsInDigit_append_singleton {init : List Char} {d : Char} :
    EndsInDigit (init ++ [d]) ↔ d.isDigit = true := by simp [EndsInDigit]

/-- A text that ends in a digit is something and this digit. -/
theorem EndsInDigit.exists_concat {cs : List Char} (h : EndsInDigit cs) :
    ∃ init d, cs = init ++ [d] ∧ d.isDigit = true := by
  obtain ⟨d, hlast, hd⟩ := h
  obtain ⟨init, rfl⟩ := List.getLast?_eq_some_iff.1 hlast
  exact ⟨init, d, rfl, hd⟩

/-- What ends in a digit may be changed before its last part, as long as a digit is left there. -/
theorem endsInDigit_append {xs ys zs : List Char} (hzs : EndsInDigit zs)
    (h : EndsInDigit (xs ++ ys)) : EndsInDigit (zs ++ ys) := by
  unfold EndsInDigit at *
  rw [List.getLast?_append] at *
  cases hys : ys.getLast? with
  | none => simpa using hzs
  | some d => simpa [hys] using h

/-- An operator occurs where a digit stands before its symbol and an operand begins after it. -/
def Occurs (op : Operator) (cs : List Char) : Prop :=
  ∃ left right, cs = left ++ (op.symbol ++ right) ∧ EndsInDigit left ∧ BeginsOperand right

/-- No operator extends the operand on its left. -/
theorem noExtension_symbol_append (op : Operator) (cs : List Char) :
    NoExtension (op.symbol ++ cs) := by
  obtain ⟨c, rest, hsymbol, hc⟩ := op.exists_symbol_eq_cons
  rw [hsymbol]
  exact noExtension_cons.2 hc

/-- A digit, a symbol and an operand begin a redex. -/
theorem atFront?_ne_none {op : Operator} {d : Char} {right : List Char} (hd : d.isDigit = true)
    (hright : BeginsOperand right) : atFront? op (d :: (op.symbol ++ right)) ≠ none := by
  obtain ⟨⟨operand, after⟩, hsplit⟩ := Option.ne_none_iff_exists'.1 (split?_ne_none_iff.2 hright)
  have htext := append_of_split? hsplit
  have hfront : atFront? op (d :: (op.symbol ++ right)) = some ⟨[], [d], op, operand, after⟩ := by
    refine atFront?_eq_some.2 ⟨rfl, rfl, ?_, by rwa [htext]⟩
    rw [htext]
    exact split?_append (.unsigned (.whole (Numeral.isDigits_singleton hd)))
      (noExtension_symbol_append op right)
  simp [hfront]

/-- A redex at the front of a later part is found, or one before it. -/
theorem find?_ne_none_of_atFront? {op : Operator} {cs : List Char} (skipped : List Char)
    (hne : cs ≠ []) (h : atFront? op cs ≠ none) : find? op (skipped ++ cs) ≠ none := by
  induction skipped with
  | nil =>
    obtain ⟨c, rest, rfl⟩ := List.exists_cons_of_ne_nil hne
    obtain ⟨r, hr⟩ := Option.ne_none_iff_exists'.1 h
    simp [find?, hr]
  | cons c skipped ih =>
    rw [List.cons_append, find?]
    split
    · simp
    · simpa using ih

/-! ### Where no redex begins -/

/-- There is no redex at the front without an operand there. -/
theorem atFront?_eq_none_of_not_beginsOperand {op : Operator} {cs : List Char}
    (h : ¬BeginsOperand cs) : atFront? op cs = none := by
  rw [atFront?, split?_eq_none_iff.2 h]

/-- The text after a symbol says which one it is: an operand follows `/`, and not `//`. -/
theorem eq_of_symbol_append {p op : Operator} {xs ys : List Char} (hxs : BeginsOperand xs)
    (hys : BeginsOperand ys) (h : p.symbol ++ xs = op.symbol ++ ys) : p = op := by
  have hslash : ∀ rest, ¬BeginsOperand ('/' :: rest) := fun _ ↦
    not_beginsOperand_cons (by decide) (by decide)
  cases p <;> cases op <;> simp [Operator.symbol] at h ⊢
  · exact hslash _ (h ▸ hxs)
  · exact hslash _ (h ▸ hys)

/-- No redex for an operator begins at an operand that another operator follows. -/
theorem atFront?_eq_none_of_ne {p op : Operator} {operand rest : List Char} (hp : p ≠ op)
    (hoperand : IsOperand operand) (hrest : BeginsOperand rest) :
    atFront? op (operand ++ (p.symbol ++ rest)) = none := by
  rw [Option.eq_none_iff_forall_ne_some]
  intro r hr
  obtain ⟨-, -, hleft, hright⟩ := atFront?_eq_some.1 hr
  rw [split?_append hoperand (noExtension_symbol_append p rest)] at hleft
  have hafter := (Prod.mk.inj (Option.some.inj hleft)).2
  have hbegins : BeginsOperand (r.right ++ r.after) := split?_ne_none_iff.1 (by simp [hright])
  exact hp (eq_of_symbol_append hrest hbegins hafter)

/-- No redex begins at the last operand of a text. -/
theorem atFront?_eq_none_of_isOperand {op : Operator} {operand : List Char}
    (hoperand : IsOperand operand) : atFront? op operand = none := by
  rw [Option.eq_none_iff_forall_ne_some]
  intro r hr
  obtain ⟨-, -, hleft, -⟩ := atFront?_eq_some.1 hr
  rw [← List.append_nil operand, split?_append hoperand noExtension_nil] at hleft
  have hafter := (Prod.mk.inj (Option.some.inj hleft)).2
  exact op.symbol_ne_nil (List.append_eq_nil_iff.1 hafter.symm).1

/-! ### Redexes in a longer text -/

/-- The redex in a longer text. -/
def within (left right : List Char) (r : Redex) : Redex :=
  { r with before := left ++ r.before, after := r.after ++ right }

theorem replace_within (left right cs : List Char) (r : Redex) :
    (r.within left right).replace cs = left ++ (r.replace cs ++ right) := by
  simp [within, replace]

/-- A redex at the front is the leftmost one. -/
theorem find?_of_atFront? {op : Operator} {cs : List Char} {r : Redex}
    (h : atFront? op cs = some r) : find? op cs = some r := by
  cases cs with
  | nil => simp [atFront?, split?, splitUnsigned?] at h
  | cons c cs => rw [find?, h]

/-- Where no redex begins may be skipped. -/
theorem find?_append_of_forall {op : Operator} {skipped cs : List Char}
    (h : ∀ front part, skipped = front ++ part → part ≠ [] → atFront? op (part ++ cs) = none) :
    find? op (skipped ++ cs) = (find? op cs).map (within skipped []) := by
  induction skipped with
  | nil =>
    have hsame : within [] [] = id := by
      funext r
      simp [within]
    rw [hsame, Option.map_id]
    rfl
  | cons c skipped ih =>
    have hfront : atFront? op (c :: (skipped ++ cs)) = none := h [] (c :: skipped) rfl (by simp)
    rw [List.cons_append, find?, hfront,
      ih fun front part hsplit hne ↦ h (c :: front) part (by rw [hsplit]; rfl) hne, Option.map_map]
    rfl

/-! ### What a leftmost redex consists of -/

variable {op : Operator} {cs : List Char} {r : Redex}

theorem text_eq_of_find? (h : find? op cs = some r) : cs = r.before ++ (r.matched ++ r.after) := by
  rw [← text_of_find? h, text, replace, List.append_assoc]

/-- What is found on the left of an operator is an operand. -/
theorem isOperand_left (h : find? op cs = some r) : IsOperand r.left :=
  isOperand_of_split? (atFront?_eq_some.1 (atFront?_of_find? h)).2.2.1

/-- So is what is found on its right. -/
theorem isOperand_right (h : find? op cs = some r) : IsOperand r.right :=
  isOperand_of_split? (atFront?_eq_some.1 (atFront?_of_find? h)).2.2.2

theorem endsInDigit_matched (h : find? op cs = some r) : EndsInDigit r.matched := by
  obtain ⟨init, d, hd, hdigit⟩ := (isOperand_right h).exists_concat
  rw [matched, hd, ← List.append_assoc]
  exact endsInDigit_append_singleton.2 hdigit

theorem beginsOperand_matched (h : find? op cs = some r) : BeginsOperand r.matched := by
  rw [matched, List.append_assoc]
  exact beginsOperand_append (isOperand_left h).beginsOperand _

/-- An operator has a redex exactly if it occurs. -/
theorem find?_ne_none_iff : find? op cs ≠ none ↔ Occurs op cs := by
  constructor
  · intro h
    obtain ⟨r, hr⟩ := Option.ne_none_iff_exists'.1 h
    refine ⟨r.before ++ r.left, r.right ++ r.after, ?_, ?_,
      beginsOperand_append (isOperand_right hr).beginsOperand _⟩
    · rw [← text_of_find? hr, text, replace, matched, operator_of_find? hr]
      simp
    · obtain ⟨init, d, hleft, hd⟩ := (isOperand_left hr).exists_concat
      rw [hleft, ← List.append_assoc]
      exact endsInDigit_append_singleton.2 hd
  · rintro ⟨left, right, rfl, hleft, hright⟩
    obtain ⟨init, d, rfl, hd⟩ := hleft.exists_concat
    rw [List.append_assoc, List.singleton_append]
    exact find?_ne_none_of_atFront? init (by simp) (atFront?_ne_none hd hright)

/-- Nothing is found exactly if the operator does not occur between operands. -/
theorem find?_eq_none_iff : find? op cs = none ↔ ¬Occurs op cs := by
  rw [← find?_ne_none_iff, Ne, Classical.not_not]

/-- An operation for an operator, two operands with its symbol in between, is part of a text. -/
def Contains (op : Operator) (cs : List Char) : Prop :=
  ∃ left right, IsOperand left ∧ IsOperand right ∧ left ++ (op.symbol ++ right) <:+: cs

/-- An operator has a redex exactly if the text contains an operation for it. -/
theorem find?_ne_none_iff_contains : find? op cs ≠ none ↔ Contains op cs := by
  constructor
  · intro h
    obtain ⟨r, hr⟩ := Option.ne_none_iff_exists'.1 h
    refine ⟨r.left, r.right, isOperand_left hr, isOperand_right hr, r.before, r.after, ?_⟩
    rw [← text_of_find? hr, text, replace, matched, operator_of_find? hr, List.append_assoc r.left]
  · rintro ⟨left, right, hleft, hright, before, after, rfl⟩
    obtain ⟨init, d, rfl, hd⟩ := hleft.exists_concat
    refine find?_ne_none_iff.2 ⟨before ++ (init ++ [d]), right ++ after, by simp, ?_,
      beginsOperand_append hright.beginsOperand after⟩
    rw [← List.append_assoc]
    exact endsInDigit_append_singleton.2 hd

theorem find?_eq_none_iff_not_contains : find? op cs = none ↔ ¬Contains op cs := by
  rw [← find?_ne_none_iff_contains, Ne, Classical.not_not]

/-! ### The redex that is due -/

/-- Nothing is due exactly if there is nothing for any operator. -/
theorem first?_eq_none_iff : first? cs = none ↔ ∀ op, find? op cs = none := by
  rw [first?, List.findSome?_eq_none_iff]
  exact ⟨fun h op ↦ h op op.mem_scanOrder, fun h op _ ↦ h op⟩

/-- No redex is due in a text without seams. -/
theorem first?_eq_none_of_seams (h : seams cs = 0) : first? cs = none := by
  rw [first?_eq_none_iff]
  intro op
  rw [Option.eq_none_iff_forall_ne_some]
  intro r hr
  have hzero : seams ['0'] = 0 := rfl
  have hlt := seams_replace_lt hr (by simp) hzero
  omega

/-- The redex that is due is the leftmost one for its operator, and there is none for the operators
before it. -/
theorem first?_eq_some_iff :
    first? cs = some r ↔
      find? r.operator cs = some r ∧ ∀ op ∈ r.operator.earlier, find? op cs = none := by
  rw [first?, List.findSome?_eq_some_iff]
  constructor
  · rintro ⟨before, op, after, horder, hop, hbefore⟩
    obtain rfl := operator_of_find? hop
    rw [Operator.earlier_eq_of_append horder]
    exact ⟨hop, hbefore⟩
  · rintro ⟨hfind, hearlier⟩
    obtain ⟨after, horder⟩ := r.operator.exists_scanOrder_eq
    exact ⟨r.operator.earlier, r.operator, after, horder, hfind, hearlier⟩

end Redex

end TextCalculator
