import TextCalculator.Proofs.Run

/-!
# Irreducible texts

A text is *irreducible* if nothing is left to be done with it but to read it as a number: no blanks
are to be dropped, it is no absolute value, and it contains no operation. Evaluating such a text
takes no round and reads it (`IsIrreducible.ofExpression_eq`).

What an evaluation leaves at its end is irreducible (`isIrreducible_of_ending`). There are no blanks
in the text that it begins with, and written numbers bring none. So the result of an evaluation is
always that of its last text by itself. Reading an operand, or the integer of an absolute value,
does not fail, so a text that is reported as malformed is never one of these.
-/

namespace TextCalculator

/-- A text with which nothing is left to be done but to read it. -/
structure IsIrreducible (cs : List Char) : Prop where
  /-- It has no blanks. -/
  no_blank : ∀ c ∈ cs, Text.isBlank c = false
  /-- It is no absolute value. -/
  no_absolute : ∀ negative ds, Numeral.IsDigits ds →
    cs ≠ '|' :: (Numeral.signed negative ds ++ ['|'])
  /-- It contains no operation. -/
  no_operation : ∀ op, ¬Redex.Contains op cs

theorem Redex.first?_eq_none_iff_not_contains {cs : List Char} :
    first? cs = none ↔ ∀ op, ¬Contains op cs := by
  simp only [first?_eq_none_iff, find?_eq_none_iff_not_contains]

/-- The program finds out by three tests whether a text is irreducible. -/
theorem isIrreducible_iff {cs : List Char} :
    IsIrreducible cs ↔
      cs.any Text.isBlank = false ∧ absoluteForm? cs = none ∧ Redex.first? cs = none := by
  simp only [List.any_eq_false, Bool.not_eq_true, absoluteForm?_eq_none_iff,
    Redex.first?_eq_none_iff_not_contains]
  exact ⟨fun h ↦ ⟨h.1, h.2, h.3⟩, fun h ↦ ⟨h.1, h.2.1, h.2.2⟩⟩

instance (cs : List Char) : Decidable (IsIrreducible cs) :=
  decidable_of_iff _ isIrreducible_iff.symm

namespace IsIrreducible

/-- Evaluating an irreducible text is reading it. -/
theorem ofExpression_eq {expression : String} (h : IsIrreducible expression.toList) :
    Evaluation.ofExpression expression = ⟨[], .normal expression.toList⟩ := by
  rw [Evaluation.ofExpression, Text.dropBlanks_eq_self h.no_blank]
  exact Evaluation.ofText_of_normal (absoluteForm?_eq_none_iff.2 h.no_absolute)
    (Redex.first?_eq_none_iff_not_contains.2 h.no_operation)

theorem evaluate_eq {expression : String} (h : IsIrreducible expression.toList) :
    evaluate expression = Numeral.read expression.toList := by
  rw [evaluate, h.ofExpression_eq]
  rfl

end IsIrreducible

/-- A written number is irreducible. -/
theorem isIrreducible_write (x : Binary64) : IsIrreducible (Numeral.write x) where
  no_blank _ := (Numeral.isWritten_write x).isBlank_of_mem
  no_absolute := by
    obtain ⟨c, hc, h⟩ := (Numeral.isWritten_write x).exists_mem
    exact absoluteForm?_eq_none_iff.1 (absoluteForm?_eq_none hc h)
  no_operation := Redex.first?_eq_none_iff_not_contains.1
    (Redex.first?_eq_none_of_seams (Numeral.seams_write x))

theorem toList_render (x : Binary64) : x.render.toList = Numeral.write x := String.toList_ofList

/-- A written number is irreducible. -/
theorem isIrreducible_render (x : Binary64) : IsIrreducible x.render.toList :=
  toList_render x ▸ isIrreducible_write x

/-- A written number is evaluated to the number. -/
theorem evaluate_written (x : Binary64) : evaluate x.render = .ok x := by
  rw [(isIrreducible_render x).evaluate_eq, toList_render, Numeral.read_write]

/-! ### What is read without fail -/

/-- Both operands of a redex that is due are read, so its value is that of the operator. -/
theorem Redex.exists_read_of_first? {cs : List Char} {redex : Redex}
    (h : first? cs = some redex) :
    ∃ x y, Numeral.read redex.left = .ok x ∧ Numeral.read redex.right = .ok y ∧
      redex.value = redex.operator.apply x y := by
  obtain ⟨op, hop⟩ := exists_find?_of_first? h
  obtain ⟨x, y, hx, hy, hvalue⟩ := exists_value_eq hop
  exact ⟨x, y, by rw [Numeral.read, hx], by rw [Numeral.read, hy], hvalue⟩

/-- The integer of an absolute value is read. -/
theorem exists_read_of_absoluteForm? {cs inner : List Char}
    (h : absoluteForm? cs = some inner) : ∃ x, Numeral.read inner = .ok x := by
  obtain ⟨-, negative, ds, hds, rfl⟩ := absoluteForm?_eq_some_iff.1 h
  obtain ⟨x, hx⟩ := Operand.exists_read?_of_isOperand
    (Operand.isOperand_signed negative (.whole hds))
  exact ⟨x, by rw [Numeral.read, hx]⟩

theorem Numeral.read_eq_ok_iff {cs : List Char} {x : Binary64} :
    read cs = .ok x ↔ read? cs = some x := by
  cases hread : read? cs <;> simp [read, hread]

theorem Numeral.read_eq_malformed_iff {cs : List Char} {text : String} :
    read cs = .error (.malformed text) ↔ read? cs = none ∧ text.toList = cs := by
  cases hread : read? cs with
  | some x => simp [read, hread]
  | none => simp [read, hread, eq_comm, ← String.toList_inj]

namespace Evaluation

/-! ### What an evaluation leaves -/

/-- A round brings no blanks. -/
theorem isBlank_of_rewrites {cs ds : List Char} (h : Rewrites cs ds)
    (hcs : ∀ c ∈ cs, Text.isBlank c = false) : ∀ c ∈ ds, Text.isBlank c = false := by
  obtain ⟨redex, value, hdue, -, rfl⟩ := h
  obtain ⟨op, hop⟩ := Redex.exists_find?_of_first? hdue
  rw [Redex.text_eq_of_find? hop] at hcs
  intro c hc
  rcases List.mem_append.1 hc with hc | hc
  · rcases List.mem_append.1 hc with hc | hc
    · exact hcs c (List.mem_append_left _ hc)
    · exact (Numeral.isWritten_write value).isBlank_of_mem hc
  · exact hcs c (List.mem_append_right _ (List.mem_append_right _ hc))

/-- The last text of an evaluation of an expression has no blanks and decides how it ends. -/
theorem endsAt_ofExpression (expression : String) :
    ∃ last, (texts (Text.dropBlanks expression.toList)
        (ofExpression expression)).getLast? = some last ∧
      (∀ c ∈ last, Text.isBlank c = false) ∧ EndsAt last (ofExpression expression).ending := by
  obtain ⟨last, hlast, hends⟩ := endsAt_ofText (Text.dropBlanks expression.toList)
  exact ⟨last, hlast, forall_mem_texts (fun _ _ ↦ isBlank_of_rewrites) (isChain_rewrites_ofText _)
    (fun c ↦ Text.isBlank_of_mem_dropBlanks) last (List.mem_of_getLast? hlast), hends⟩

/-- An evaluation that is neither an absolute value nor failed leaves its last text, which is
irreducible. -/
theorem isIrreducible_of_ending {expression : String} {last : List Char}
    (h : (ofExpression expression).ending = .normal last) :
    (texts (Text.dropBlanks expression.toList) (ofExpression expression)).getLast? = some last ∧
      IsIrreducible last := by
  obtain ⟨text, htext, hblank, hends⟩ := endsAt_ofExpression expression
  rw [h] at hends
  cases hends with
  | normal hform hdue =>
    exact ⟨htext, hblank, absoluteForm?_eq_none_iff.1 hform,
      Redex.first?_eq_none_iff_not_contains.1 hdue⟩

/-- A malformed text is what an evaluation leaves. -/
theorem exists_normal_of_malformed {expression text : String}
    (h : evaluate expression = .error (.malformed text)) :
    ∃ last, (ofExpression expression).ending = .normal last ∧
      Numeral.read last = .error (.malformed text) := by
  obtain ⟨last, -, -, hends⟩ := endsAt_ofExpression expression
  rw [evaluate, result] at h
  generalize (ofExpression expression).ending = ending at h hends ⊢
  cases hends with
  | absolute hform =>
    obtain ⟨x, hx⟩ := exists_read_of_absoluteForm? hform
    simp [Ending.result, hx, Except.map] at h
  | normal hform hdue => exact ⟨last, rfl, h⟩
  | failed hdue hvalue =>
    obtain ⟨op, hop⟩ := Redex.exists_find?_of_first? hdue
    rw [Redex.eq_divisionByZero_of_value hop hvalue] at h
    simp [Ending.result] at h

/-- A number that an evaluation gives after some round is read from what it leaves. -/
theorem exists_normal_of_ok {expression : String} {x : Binary64}
    (h : evaluate expression = .ok x) (hrounds : (ofExpression expression).rounds ≠ []) :
    ∃ last, (ofExpression expression).ending = .normal last ∧ Numeral.read last = .ok x := by
  rw [evaluate, result] at h
  cases hending : (ofExpression expression).ending with
  | absolute inner => exact absurd (absoluteForm?_of_ending hending).2 hrounds
  | normal last => exact ⟨last, rfl, by rwa [hending] at h⟩
  | failed redex error => simp [hending, Ending.result] at h

/-- **What is reported is about the last text.** The operands of a redex that is due are read, in
any text, and the value of the redex is that of its operator. If an evaluation reports a malformed
text, this is its last text; it is irreducible and no number literal, and by itself it is reported
again, without a round. If an evaluation gives a number after some round, its last text is
irreducible and a number literal, and by itself it gives the same number. -/
theorem outcome_of_last_text (expression : String) :
    (∀ (cs : List Char) (redex : Redex), Redex.first? cs = some redex →
      ∃ x y, Numeral.read redex.left = .ok x ∧ Numeral.read redex.right = .ok y ∧
        redex.value = redex.operator.apply x y) ∧
    (∀ text : String, evaluate expression = .error (.malformed text) →
      (texts (Text.dropBlanks expression.toList)
        (ofExpression expression)).getLast? = some text.toList ∧
      IsIrreducible text.toList ∧ Numeral.read? text.toList = none ∧
      ofExpression text = ⟨[], .normal text.toList⟩ ∧
      evaluate text = .error (.malformed text)) ∧
    ∀ x : Binary64, evaluate expression = .ok x → (ofExpression expression).rounds ≠ [] →
      ∃ text : String,
        (texts (Text.dropBlanks expression.toList)
          (ofExpression expression)).getLast? = some text.toList ∧
        IsIrreducible text.toList ∧ Numeral.read? text.toList = some x ∧
        ofExpression text = ⟨[], .normal text.toList⟩ ∧ evaluate text = .ok x := by
  refine ⟨fun cs redex ↦ Redex.exists_read_of_first?, fun text herror ↦ ?_, fun x hok hrounds ↦ ?_⟩
  -- both ends are the reading of a last text, which is irreducible and so evaluates without a round
  · obtain ⟨last, hending, hread⟩ := exists_normal_of_malformed herror
    obtain ⟨hnone, rfl⟩ := Numeral.read_eq_malformed_iff.1 hread
    obtain ⟨hlast, hirreducible⟩ := isIrreducible_of_ending hending
    exact ⟨hlast, hirreducible, hnone, hirreducible.ofExpression_eq,
      hirreducible.evaluate_eq.trans hread⟩
  · obtain ⟨last, hending, hread⟩ := exists_normal_of_ok hok hrounds
    obtain ⟨text, rfl⟩ : ∃ text : String, text.toList = last := ⟨.ofList last, String.toList_ofList⟩
    obtain ⟨hlast, hirreducible⟩ := isIrreducible_of_ending hending
    exact ⟨text, hlast, hirreducible, Numeral.read_eq_ok_iff.1 hread,
      hirreducible.ofExpression_eq, hirreducible.evaluate_eq.trans hread⟩

/-- Two rounds leave a number between parentheses, which is reported whole, and two rounds leave a
number literal. -/
theorem outcome_of_last_text_at_parentheses :
    evaluate "(1 + 2*3)" = .error (.malformed "(7.0)") ∧
      evaluate "(7.0)" = .error (.malformed "(7.0)") ∧
      evaluate "2*3 + 4" = .ok (.ofBits 0x4024000000000000) ∧
      (ofExpression "2*3 + 4").rounds.length = 2 ∧
      ∃ text : String,
        (texts (Text.dropBlanks "2*3 + 4".toList)
          (ofExpression "2*3 + 4")).getLast? = some text.toList ∧
        evaluate text = .ok (.ofBits 0x4024000000000000) := by
  have hmalformed : evaluate "(1 + 2*3)" = .error (.malformed "(7.0)") := by
    have hending : (ofExpression "(1 + 2*3)").ending = .normal "(7.0)".toList := by decide +kernel
    rw [evaluate, result, hending]
    rfl
  have ⟨hten, hrounds⟩ : evaluate "2*3 + 4" = .ok (.ofBits 0x4024000000000000) ∧
      (ofExpression "2*3 + 4").rounds.length = 2 := by decide +kernel
  have hne : (ofExpression "2*3 + 4").rounds ≠ [] :=
    List.ne_nil_of_length_pos (hrounds ▸ Nat.zero_lt_two)
  obtain ⟨-, -, -, -, hagain⟩ := (outcome_of_last_text "(1 + 2*3)").2.1 _ hmalformed
  obtain ⟨text, hlast, -, -, -, hsame⟩ := (outcome_of_last_text "2*3 + 4").2.2 _ hten hne
  exact ⟨hmalformed, hagain, hten, hrounds, text, hlast, hsame⟩

end Evaluation

end TextCalculator
