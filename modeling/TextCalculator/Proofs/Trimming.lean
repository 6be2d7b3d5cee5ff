import Mathlib.Data.List.DropRight
import TextCalculator.Text.Blank

/-!
# Trimming at both ends

What is left of a list between the members at its two ends that are to be dropped. It is what was
put there, if this neither begins nor ends with such a member (`rdropWhile_dropWhile_append`), and a
list is always what is left of it with such members around it
(`exists_eq_append_rdropWhile_dropWhile`).
-/

namespace TextCalculator

section

variable {α : Type} {p : α → Bool} {front as back : List α}

/-- What is put between members that are dropped is left. -/
theorem rdropWhile_dropWhile_append (hfront : ∀ a ∈ front, p a = true)
    (hback : ∀ a ∈ back, p a = true) (hhead : ∀ a, as.head? = some a → p a = false)
    (hlast : ∀ a, as.getLast? = some a → p a = false) :
    ((front ++ as ++ back).dropWhile p).rdropWhile p = as := by
  rcases as with - | ⟨a, more⟩
  · rw [List.append_nil, List.dropWhile_eq_nil_iff.2 (List.forall_mem_append.2 ⟨hfront, hback⟩),
      List.rdropWhile_nil]
  have hends : (a :: more).rdropWhile p = a :: more :=
    List.rdropWhile_eq_self_iff.2 fun hne ↦ by
      rw [hlast _ (List.getLast?_eq_some_getLast hne)]
      exact Bool.false_ne_true
  rw [List.append_assoc, List.dropWhile_append_of_pos hfront, List.cons_append,
    List.dropWhile_cons_of_neg (by rw [hhead _ rfl]; exact Bool.false_ne_true),
    ← List.cons_append, List.rdropWhile, List.reverse_append,
    List.dropWhile_append_of_pos fun b hb ↦ hback b (List.mem_reverse.1 hb)]
  exact hends

/-- What is not left is dropped. -/
theorem exists_eq_append_rdropWhile_dropWhile (p : α → Bool) (as : List α) :
    ∃ front back, (∀ a ∈ front, p a = true) ∧ (∀ a ∈ back, p a = true) ∧
      as = front ++ (as.dropWhile p).rdropWhile p ++ back := by
  refine ⟨as.takeWhile p, (as.dropWhile p).rtakeWhile p, fun a h ↦ List.mem_takeWhile_imp h,
    fun a h ↦ List.mem_rtakeWhile_imp h, ?_⟩
  rw [List.append_assoc, List.rdropWhile_append_rtakeWhile, List.takeWhile_append_dropWhile]

end

namespace Text

variable {before cs after : List Char}

/-- A text between white space is left, if it has none at its own ends. -/
theorem trim_append (hbefore : ∀ c ∈ before, isWhiteSpace c = true)
    (hafter : ∀ c ∈ after, isWhiteSpace c = true)
    (hhead : ∀ c, cs.head? = some c → isWhiteSpace c = false)
    (hlast : ∀ c, cs.getLast? = some c → isWhiteSpace c = false) :
    trim (before ++ cs ++ after) = cs :=
  rdropWhile_dropWhile_append hbefore hafter hhead hlast

theorem exists_eq_append_trim (cs : List Char) :
    ∃ before after, (∀ c ∈ before, isWhiteSpace c = true) ∧ (∀ c ∈ after, isWhiteSpace c = true) ∧
      cs = before ++ trim cs ++ after :=
  exists_eq_append_rdropWhile_dropWhile isWhiteSpace cs

end Text

end TextCalculator
