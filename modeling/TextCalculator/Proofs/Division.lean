import TextCalculator.Text.Lines

/-!
# Dividing a text

A text is divided into lines, and a line at the last occurrence of a word. Both give back what a
text was put together from: the lines that were put one after the other (`lines_flatMap`), and the
two parts that were put around a word, if the second does not have the last item of the word
(`isLastSplit_of_not_mem`).

Lines are what splitting at every line feed gives, apart from carriage returns and from what follows
the last line feed (`lines_eq_splitOn`), so a line feed keeps what is before it apart from what is
after it (`lines_append_cons`).
-/

namespace TextCalculator.Text

variable {α : Type}

/-! ### Lines -/

section Lines

variable [DecidableEq α] {feed carriageReturn : α} {line : List α}

theorem stretches_append_feed (h : feed ∉ line) (as : List α) :
    stretches feed (line ++ feed :: as) = (line, true) :: stretches feed as := by
  induction line with
  | nil => rw [List.nil_append, stretches, if_pos rfl]
  | cons a line ih =>
    obtain ⟨hne, hrest⟩ := not_or.1 (mt List.mem_cons.2 h)
    rw [List.cons_append, stretches, if_neg (Ne.symm hne), ih hrest]

/-- Up to its first line feed a text is one line. -/
theorem lines_append_feed (h : feed ∉ line) (as : List α) :
    lines feed carriageReturn (line ++ feed :: as) =
      dropReturn carriageReturn line :: lines feed carriageReturn as := by
  rw [lines, stretches_append_feed h, List.map_cons]
  rfl

/-- Lines with a line feed after each are the lines of the text, if none has a line feed in it or a
carriage return at its end. -/
theorem lines_flatMap {ls : List (List α)}
    (h : ∀ line ∈ ls, feed ∉ line ∧ line.getLast? ≠ some carriageReturn) :
    lines feed carriageReturn (ls.flatMap (· ++ [feed])) = ls := by
  induction ls with
  | nil => rfl
  | cons line ls ih =>
    obtain ⟨⟨hfeed, hreturn⟩, hrest⟩ := List.forall_mem_cons.1 h
    rw [List.flatMap_cons, List.append_assoc, List.singleton_append, lines_append_feed hfeed,
      dropReturn, if_neg hreturn, ih hrest]

/-- A text falls into stretches as it is split at its line feeds, and a last piece that is empty is
no stretch. -/
theorem stretches_eq_splitOn (as : List α) :
    stretches feed as = (as.splitOn feed).dropLast.map (·, true) ++
      ((as.splitOn feed).getLast?.toList.filter (· ≠ [])).map (·, false) := by
  induction as with
  | nil => rfl
  | cons a as ih =>
    rw [stretches, List.splitOn_cons_eq_if_modifyHead]
    obtain ⟨piece, pieces, hpieces⟩ := List.exists_cons_of_ne_nil (List.splitOn_ne_nil feed as)
    rw [hpieces] at ih ⊢
    by_cases hfeed : a = feed
    · rw [if_pos hfeed, if_pos (beq_iff_eq.2 hfeed), ih]
      simp
    · rw [if_neg hfeed, if_neg (by simpa using hfeed), ih]
      cases pieces with
      | nil => by_cases hpiece : piece = [] <;> simp [hpiece]
      | cons _ _ => simp

theorem lines_eq_splitOn (as : List α) :
    lines feed carriageReturn as = (as.splitOn feed).dropLast.map (dropReturn carriageReturn) ++
      (as.splitOn feed).getLast?.toList.filter (· ≠ []) := by
  rw [lines, stretches_eq_splitOn, List.map_append, List.map_map, List.map_map]
  exact congrArg _ (List.map_id _)

/-- What stands before a line feed falls into lines by itself. -/
theorem lines_append_cons (as bs : List α) :
    lines feed carriageReturn (as ++ feed :: bs) =
      (as.splitOn feed).map (dropReturn carriageReturn) ++ lines feed carriageReturn bs := by
  have hne := List.splitOn_ne_nil feed bs
  rw [lines_eq_splitOn, lines_eq_splitOn, List.splitOn_append_cons_self,
    List.dropLast_append_of_ne_nil hne, List.getLast?_append, List.getLast?_eq_some_getLast hne,
    Option.some_or, List.map_append, List.append_assoc]

/-- A list has one piece more than it has line feeds. -/
theorem length_splitOn (as : List α) : (as.splitOn feed).length = as.count feed + 1 := by
  induction as with
  | nil => rfl
  | cons a as ih =>
    rw [List.splitOn_cons_eq_if_modifyHead, List.count_cons]
    split
    · rw [List.length_cons, ih]
    · rw [List.length_modifyHead, ih, Nat.add_zero]

end Lines

/-! ### The last occurrence of a word -/

/-- A text is divided at the last occurrence of a word: no occurrence begins further right. -/
structure IsLastSplit (word before after text : List α) : Prop where
  /-- The word is between the parts. -/
  eq : text = before ++ word ++ after
  /-- Any other occurrence is further left. -/
  last : ∀ before' after', text = before' ++ word ++ after' → before'.length ≤ before.length

variable {word before after text : List α}

/-- A text is divided at the last occurrence of a word in one way only. -/
theorem IsLastSplit.unique {before' after' : List α} (h : IsLastSplit word before after text)
    (h' : IsLastSplit word before' after' text) : before = before' ∧ after = after' := by
  have hlength : before.length = before'.length :=
    Nat.le_antisymm (h'.last _ _ h.eq) (h.last _ _ h'.eq)
  have heq := h.eq.symm.trans h'.eq
  rw [List.append_assoc, List.append_assoc] at heq
  obtain ⟨rfl, hrest⟩ := List.append_inj heq hlength
  exact ⟨rfl, List.append_cancel_left hrest⟩

/-- Where the last item of a word does not occur any more, the word does not either. -/
theorem isLastSplit_of_not_mem (init : List α) {a : α} (h : a ∉ after) :
    IsLastSplit (init ++ [a]) before after (before ++ (init ++ [a]) ++ after) where
  eq := rfl
  last before' after' heq := by
    rcases List.append_eq_append_iff.1 heq with ⟨rest, hprefix, hafter⟩ | ⟨rest, hprefix, -⟩
    · -- the other occurrence ends with the first one, or else within what follows it
      rcases List.eq_nil_or_concat rest with rfl | ⟨rest, b, rfl⟩
      · have hlength := congrArg List.length hprefix
        simp only [List.length_append, List.append_nil] at hlength
        omega
      · have hlast := congrArg List.getLast? hprefix
        simp only [List.concat_eq_append, ← List.append_assoc, List.getLast?_concat,
          Option.some.injEq] at hlast
        exact absurd (by simp [hafter, hlast]) h
    · have hlength := congrArg List.length hprefix
      simp only [List.length_append] at hlength
      omega

end TextCalculator.Text
