import Mathlib.Data.List.Chain
import TextCalculator.Proofs.Exhaustion

/-!
# Minus signs in a row

A text without two minus signs in a row stays so from round to round (`noDoubleMinus_replace`). A
written number brings minus signs only to its front and behind the exponent mark, and no minus sign
stands right before a leftmost redex: it would be the sign of the left operand.

The reason to ask for this is that it keeps operators from coming up. In such a text a round changes
no character that decides whether an operator other than the difference occurs next to it
(`occurs_of_occurs_replace`).
-/

namespace TextCalculator

/-- A text in which no two minus signs are next to each other. -/
def NoDoubleMinus (cs : List Char) : Prop := ¬['-', '-'] <:+: cs

/-- Two characters that are not both a minus sign. -/
abbrev NotBothMinus (a b : Char) : Prop := ¬(a = '-' ∧ b = '-')

/-- That no two minus signs stand next to each other is said of neighbours. -/
theorem noDoubleMinus_iff_isChain {cs : List Char} :
    NoDoubleMinus cs ↔ cs.IsChain NotBothMinus := by
  constructor
  · intro h
    induction cs with
    | nil => exact .nil
    | cons a cs ih =>
      refine List.isChain_cons.2 ⟨?_, ih fun hcs ↦ h (hcs.trans (List.suffix_cons a cs).isInfix)⟩
      rintro b hb ⟨rfl, rfl⟩
      obtain ⟨rest, rfl⟩ := List.head?_eq_some_iff.1 hb
      exact h ⟨[], rest, rfl⟩
  · rintro h hinfix
    have hchain := List.IsChain.infix h hinfix
    exact (List.isChain_cons_cons.1 hchain).1 ⟨rfl, rfl⟩

/-! ### Written numbers -/

namespace Numeral

/-- A minus sign stands after the mark of an exponent. -/
abbrev MinusAfterMark (a b : Char) : Prop := b = '-' → a = 'E'

theorem isChain_of_not_mem {cs : List Char} (h : '-' ∉ cs) : cs.IsChain MinusAfterMark := by
  refine (List.pairwise_of_forall_mem_list fun a _ b hb hminus ↦ ?_).isChain
  exact absurd (hminus ▸ hb) h

/-- A minus sign may be put in front of what does not begin with one. -/
theorem isChain_minus_cons {cs : List Char} (h : cs.head? ≠ some '-')
    (hcs : cs.IsChain MinusAfterMark) : ('-' :: cs).IsChain MinusAfterMark :=
  List.isChain_cons.2 ⟨fun _ hb hminus ↦ absurd (hminus ▸ hb) h, hcs⟩

theorem IsDigits.minus_not_mem {ds : List Char} (h : IsDigits ds) : '-' ∉ ds :=
  fun hmem ↦ absurd (h.2 _ hmem) (by decide)

/-- A written integer has no minus sign but the one in front. -/
theorem isChain_integer (n : Int) : (integer n).IsChain MinusAfterMark := by
  obtain ⟨ds, hds, h | h⟩ := isDigits_of_integer n
  · rw [h]
    exact isChain_of_not_mem hds.minus_not_mem
  · rw [h]
    obtain ⟨d, rest, rfl, hd⟩ := hds.exists_cons
    refine isChain_minus_cons ?_ (isChain_of_not_mem hds.minus_not_mem)
    rintro ⟨⟩
    simp at hd

namespace IsMagnitude

variable {cs tail : List Char} {d : Decimal}

/-- In a written magnitude a minus sign stands after the mark of the exponent. -/
theorem isChain (h : IsMagnitude cs tail d) : cs.IsChain MinusAfterMark := by
  obtain @⟨ds, es, _, n, hds, hes, htail⟩ := h
  have hfront : '-' ∉ ds ++ '.' :: es := by
    simp [hds.minus_not_mem, hes.minus_not_mem]
  cases htail with
  | none => exact isChain_of_not_mem (by simpa using hfront)
  | mark n =>
    have hmark : '-' ∉ ds ++ '.' :: es ++ ['E'] := by
      rw [List.mem_append, not_or]
      exact ⟨hfront, by decide⟩
    have hmeet : ∀ a ∈ (ds ++ '.' :: es ++ ['E']).getLast?, ∀ b ∈ (integer n).head?,
        MinusAfterMark a b := by
      rw [List.getLast?_concat]
      rintro a ⟨⟩ b - -
      rfl
    have hchain := (isChain_of_not_mem hmark).append (isChain_integer n) hmeet
    simpa using hchain

theorem head?_ne_minus (h : IsMagnitude cs tail d) : cs.head? ≠ some '-' := by
  obtain ⟨c, rest, rfl, hc⟩ := h.exists_cons
  rintro ⟨⟩
  simp at hc

end IsMagnitude

theorem isChain_signed {cs : List Char} (negative : Bool) (h : cs.head? ≠ some '-')
    (hcs : cs.IsChain MinusAfterMark) : (signed negative cs).IsChain MinusAfterMark := by
  cases negative with
  | false => exact hcs
  | true => exact isChain_minus_cons h hcs

theorem getLast?_signed {cs : List Char} (negative : Bool) (h : cs ≠ []) :
    (signed negative cs).getLast? = cs.getLast? := by
  cases negative with
  | false => rfl
  | true =>
    obtain ⟨c, rest, rfl⟩ := List.exists_cons_of_ne_nil h
    exact List.getLast?_cons_cons

namespace IsWritten

variable {cs : List Char}

/-- A minus sign of a written number is at its front or behind the exponent mark. -/
theorem isChain (h : IsWritten cs) : cs.IsChain MinusAfterMark := by
  rcases h with _ | negative | ⟨negative, h⟩
  · exact isChain_of_not_mem (by decide)
  · exact isChain_signed negative (by decide) (isChain_of_not_mem (by decide))
  · exact isChain_signed negative h.head?_ne_minus h.isChain

/-- So it has no two minus signs in a row. -/
theorem isChain_notBothMinus (h : IsWritten cs) : cs.IsChain NotBothMinus :=
  h.isChain.imp fun _ _ hmark hboth ↦
    absurd (hboth.1.symm.trans (hmark hboth.2)) (by decide)

/-- A written number does not end in a minus sign. -/
theorem getLast?_ne_minus (h : IsWritten cs) : cs.getLast? ≠ some '-' := by
  rcases h with _ | negative | ⟨negative, h⟩
  · decide
  · rw [getLast?_signed negative (by decide)]
    decide
  · obtain ⟨init, c, rfl, hc⟩ := h.exists_concat
    rw [getLast?_signed negative (by simp), List.getLast?_concat]
    rintro ⟨⟩
    simp at hc

end IsWritten

end Numeral

/-! ### A round -/

namespace Redex

open Operand

variable {op : Operator} {cs : List Char} {r : Redex}

/-- A minus sign in front of a redex extends it, unless it begins with a minus sign. -/
theorem atFront?_minus_cons_ne_none (hsign : cs.head? ≠ some '-') (h : atFront? op cs ≠ none) :
    atFront? op ('-' :: cs) ≠ none := by
  obtain ⟨r, hr⟩ := Option.ne_none_iff_exists'.1 h
  obtain ⟨-, hop, hleft, hright⟩ := atFront?_eq_some.1 hr
  rw [split?_eq_splitUnsigned? hsign] at hleft
  have longer : atFront? op ('-' :: cs) = some { r with before := [], left := '-' :: r.left } :=
    atFront?_eq_some.2 ⟨rfl, hop, by rw [split?_minus_cons, hleft]; rfl, hright⟩
  simp [longer]

/-- A minus sign stands right before the leftmost redex only if the redex begins with one. -/
theorem getLast?_before_ne_minus (h : find? op cs = some r)
    (hsign : (r.matched ++ r.after).head? ≠ some '-') : r.before.getLast? ≠ some '-' := by
  intro hlast
  obtain ⟨skipped, hskipped⟩ := List.getLast?_eq_some_iff.1 hlast
  have hnone := atFront?_eq_none_of_find? h hskipped (by simp)
  refine atFront?_minus_cons_ne_none hsign ?_ (by simpa using hnone)
  simp [atFront?_of_find? h]

/-- In a text without two minus signs in a row, no minus sign stands right before the leftmost
redex. -/
theorem getLast?_before_ne_minus_of_noDoubleMinus (h : find? op cs = some r)
    (hcs : NoDoubleMinus cs) : r.before.getLast? ≠ some '-' := by
  intro hlast
  refine getLast?_before_ne_minus h (fun hhead ↦ ?_) hlast
  obtain ⟨skipped, hskipped⟩ := List.getLast?_eq_some_iff.1 hlast
  obtain ⟨rest, hrest⟩ := List.head?_eq_some_iff.1 hhead
  refine hcs ⟨skipped, rest, ?_⟩
  rw [text_eq_of_find? h, hskipped, hrest]
  simp

/-- A round leaves a text without two minus signs in a row. -/
theorem noDoubleMinus_replace (h : find? op cs = some r) (hcs : NoDoubleMinus cs) (x : Binary64) :
    NoDoubleMinus (r.replace (Numeral.write x)) := by
  have hbefore := getLast?_before_ne_minus_of_noDoubleMinus h hcs
  have hlast := (Numeral.isWritten_write x).getLast?_ne_minus
  rw [noDoubleMinus_iff_isChain, text_eq_of_find? h, List.isChain_append,
    List.isChain_append] at hcs
  obtain ⟨hchainBefore, ⟨-, hchainAfter, -⟩, -⟩ := hcs
  rw [noDoubleMinus_iff_isChain, replace, List.append_assoc]
  have hchain := (Numeral.isWritten_write x).isChain_notBothMinus
  refine hchainBefore.append (hchain.append hchainAfter ?_) ?_
  · rintro a ha b - ⟨rfl, -⟩
    exact hlast ha
  · rintro a ha b - ⟨rfl, -⟩
    exact hbefore ha

/-! ### Operators that occur after a round -/

/-- A round does not make an operator occur that did not, the difference apart. -/
theorem occurs_of_occurs_replace (h : find? op cs = some r) (hcs : NoDoubleMinus cs) {x : Binary64}
    {p : Operator} (hp : p ≠ .difference) (hoccurs : Occurs p (r.replace (Numeral.write x))) :
    Occurs p cs := by
  obtain ⟨left, right, htext, hleft, hright⟩ := hoccurs
  have hdisjoint : ∀ c ∈ p.symbol, c ∉ Numeral.write x := by
    intro c hc hmem
    have hoperator := Operator.isOperatorChar_of_mem_symbol hc
    have hminus := (Numeral.isWritten_write x).eq_minus_of_mem hmem hoperator
    exact Operator.minus_not_mem_symbol hp (hminus ▸ hc)
  rw [replace, List.append_assoc] at htext
  rw [text_eq_of_find? h]
  -- a written number has only minus signs of an operator, so the symbol stands beside it
  rcases beside_of_disjoint p.symbol_ne_nil (Numeral.write_ne_nil x) hdisjoint htext with
    ⟨zs, hbefore, rfl⟩ | ⟨zs, rfl, hafter⟩
  · -- the operand on the right begins in what stands between the symbol and the redex, or there
    refine ⟨left, zs ++ (r.matched ++ r.after), by rw [hbefore]; simp, hleft, ?_⟩
    have hredex := beginsOperand_append (beginsOperand_matched h) r.after
    have hlast := getLast?_before_ne_minus_of_noDoubleMinus h hcs
    cases zs with
    | nil => exact hredex
    | cons a zs =>
      cases zs with
      | nil =>
        have hminus : a ≠ '-' := by
          rintro rfl
          exact hlast (by rw [hbefore, ← List.append_assoc, List.getLast?_concat])
        obtain ⟨d, rest, hd, hfirst | hfirst⟩ := hright
        · obtain ⟨rfl, -⟩ := List.cons.inj hfirst
          exact ⟨a, _, hd, .inl rfl⟩
        · exact absurd (List.cons.inj hfirst).1 hminus
      | cons b zs =>
        obtain ⟨d, rest, hd, hfirst | hfirst⟩ := hright
        · obtain ⟨rfl, -⟩ := List.cons.inj hfirst
          exact ⟨a, _, hd, .inl rfl⟩
        · obtain ⟨rfl, hsecond⟩ := List.cons.inj hfirst
          obtain ⟨rfl, -⟩ := List.cons.inj hsecond
          exact ⟨b, _, hd, .inr rfl⟩
  · -- the digit on the left is behind the redex, or its last one
    refine ⟨r.before ++ (r.matched ++ zs), right, by rw [hafter]; simp, ?_, hright⟩
    rw [← List.append_assoc] at hleft ⊢
    refine endsInDigit_append ?_ hleft
    obtain ⟨init, d, hmatched, hd⟩ := (endsInDigit_matched h).exists_concat
    rw [hmatched, ← List.append_assoc]
    exact endsInDigit_append_singleton.2 hd

end Redex

end TextCalculator
