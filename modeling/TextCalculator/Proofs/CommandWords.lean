import Mathlib.Data.List.Forall2
import Mathlib.Tactic.ByContra
import TextCalculator.Proofs.AppendOnly
import TextCalculator.Proofs.Irreducible
import TextCalculator.Proofs.LiteralGrammar
import TextCalculator.Proofs.Trimming

/-!
# Commands take no expression away

A line is a command if it is the word of one, each letter small or capital, with white space around
it (`Command.IsSpelled`), and every other line is an expression. No line that has a value is a
command (`commands_shadow_no_expression`).

Commands and expressions do not agree on what may be dropped from a line: white space of any kind,
but only at the two ends, or six blanks, but anywhere. So the two are told apart by what is dropped
from neither. A number literal has a digit or the letter n in it
(`Numeral.IsLiteral.exists_digit_or_n`), and a command has none of these
(`Command.IsSpelled.no_digit_or_n`). Without a digit there is no operation and no absolute value, so
the line of a command is left as it is and is no literal.
-/

namespace TextCalculator

/-! ### Letters -/

namespace Text

variable {c letter : Char}

/-- The capital letters, by code point. -/
theorem isUpper_iff : c.isUpper = true ↔ 65 ≤ c.toNat ∧ c.toNat ≤ 90 := decide_eq_true_iff

/-- The small letters, by code point. -/
theorem isLower_iff : c.isLower = true ↔ 97 ≤ c.toNat ∧ c.toNat ≤ 122 :=
  Bool.and_eq_true_iff.trans (and_congr decide_eq_true_iff decide_eq_true_iff)

theorem isAlpha_iff : c.isAlpha = true ↔ c.isUpper = true ∨ c.isLower = true := Bool.or_eq_true_iff

/-- Making a letter small moves a capital by 32 and leaves everything else. -/
theorem toNat_toLower (c : Char) :
    c.toLower.toNat = if 65 ≤ c.toNat ∧ c.toNat ≤ 90 then c.toNat + 32 else c.toNat := by
  split_ifs with h
  · have hshift : ('a'.val - 'A'.val).toNat = 32 := by decide
    have hbounds : c.val ≥ 'A'.val ∧ c.val ≤ 'Z'.val := h
    delta Char.toLower
    rw [dif_pos hbounds, Char.toNat_mk, UInt32.toNat_add, hshift, Char.toNat_val]
    omega
  · exact congrArg Char.toNat (dif_neg h)

/-- Making a letter a capital moves a small one back by 32 and leaves everything else. -/
theorem toNat_toUpper (c : Char) :
    c.toUpper.toNat = if 97 ≤ c.toNat ∧ c.toNat ≤ 122 then c.toNat - 32 else c.toNat := by
  split_ifs with h
  · have hshift : ('A'.val - 'a'.val).toNat = 2 ^ 32 - 32 := by decide
    have hbounds : 'a'.val ≤ c.val ∧ c.val ≤ 'z'.val := h
    delta Char.toUpper
    rw [dif_pos hbounds, Char.toNat_mk, UInt32.toNat_add, hshift, Char.toNat_val]
    omega
  · exact congrArg Char.toNat (dif_neg h)

/-- The characters that become a small letter are the letter and its capital. -/
theorem toLower_eq_iff (h : letter.isLower = true) :
    c.toLower = letter ↔ c = letter ∨ c = letter.toUpper := by
  rw [isLower_iff] at h
  rw [← Char.toNat_inj, ← Char.toNat_inj, ← Char.toNat_inj, toNat_toLower, toNat_toUpper, if_pos h]
  split_ifs <;> omega

/-- Only letters become small letters. -/
theorem isAlpha_of_toLower (h : letter.isLower = true) (hc : c.toLower = letter) :
    c.isAlpha = true := by
  rw [← hc, isLower_iff, toNat_toLower] at h
  rw [isAlpha_iff, isUpper_iff, isLower_iff]
  split_ifs at h with hupper
  · exact .inl hupper
  · exact .inr h

/-- White space is neither a letter nor a digit. -/
theorem isAlphanum_of_isWhiteSpace (h : isWhiteSpace c = true) : c.isAlphanum = false := by
  simp only [isWhiteSpace, isWithin, whiteSpaceRanges, List.any_cons, List.any_nil, Bool.or_false,
    Bool.or_eq_true, Bool.and_eq_true, decide_eq_true_eq] at h
  have hdigit : c.isDigit = true ↔ 48 ≤ c.toNat ∧ c.toNat ≤ 57 := Char.isDigit_iff_toNat
  rw [← Bool.not_eq_true, Char.isAlphanum, Bool.or_eq_true, isAlpha_iff, isUpper_iff, isLower_iff,
    hdigit]
  omega

theorem isDigit_of_isWhiteSpace (h : isWhiteSpace c = true) : c.isDigit = false :=
  (Bool.or_eq_false_iff.1 (isAlphanum_of_isWhiteSpace h)).2

theorem isWhiteSpace_of_isAlpha (h : c.isAlpha = true) : isWhiteSpace c = false := by
  rw [Bool.eq_false_iff]
  intro hwhite
  obtain ⟨hletter, -⟩ := Bool.or_eq_false_iff.1 (isAlphanum_of_isWhiteSpace hwhite)
  exact absurd h (Bool.eq_false_iff.1 hletter)

end Text

/-! ### Texts without digits -/

/-- A literal has a digit in it, or the letter that both words have. -/
theorem Numeral.IsLiteral.exists_digit_or_n {cs : List Char} {x : Binary64} (h : IsLiteral cs x) :
    ∃ c ∈ cs, c.isDigit = true ∨ c.toLower = 'n' := by
  cases h with
  | @infinity sign =>
    exact ⟨'n', List.mem_append_right sign (by decide), .inr (by decide)⟩
  | @nan sign => exact ⟨'N', List.mem_append_right sign (by decide), .inr (by decide)⟩
  | @decimal sign mantissa ds es exponent suffix negative n hsign hmantissa =>
    obtain ⟨c, hc, hdigit⟩ : ∃ c ∈ mantissa, c.isDigit = true := by
      cases hmantissa with
      | whole hds =>
        obtain ⟨d, rest, rfl, hd⟩ := hds.exists_cons
        exact ⟨d, List.mem_cons_self, hd⟩
      | point hds hes hne =>
        rcases ds with - | ⟨d, ds⟩
        · obtain ⟨e, hmem⟩ := List.exists_mem_of_ne_nil es fun hnil ↦ hne ⟨rfl, hnil⟩
          exact ⟨e, by simp [hmem], hes e hmem⟩
        · exact ⟨d, by simp, hds d List.mem_cons_self⟩
    exact ⟨c, by simp [hc], .inl hdigit⟩

/-- An expression without digits is left as it is, but for blanks. -/
theorem Evaluation.ofExpression_of_no_digit {expression : String}
    (h : ∀ c ∈ expression.toList, c.isDigit = false) :
    ofExpression expression = ⟨[], .normal (Text.dropBlanks expression.toList)⟩ := by
  have hdrop : ∀ c ∈ Text.dropBlanks expression.toList, c.isDigit = false :=
    fun c hc ↦ h c (List.mem_of_mem_filter hc)
  refine ofText_of_normal (absoluteForm?_eq_none_iff.2 fun negative ds hds hform ↦ ?_)
    (Redex.first?_eq_none_iff_not_contains.2 fun op hop ↦ ?_)
  · obtain ⟨d, rest, rfl, hd⟩ := hds.exists_cons
    have hmem : d ∈ Text.dropBlanks expression.toList := by
      rw [hform]
      have hmem := Numeral.mem_signed negative (List.mem_cons_self (a := d) (l := rest))
      exact List.mem_cons_of_mem _ (List.mem_append_left _ hmem)
    exact absurd hd (Bool.eq_false_iff.1 (hdrop d hmem))
  · obtain ⟨left, right, hleft, -, hpart⟩ := hop
    obtain ⟨init, d, rfl, hd⟩ := hleft.exists_concat
    exact absurd hd (Bool.eq_false_iff.1 (hdrop d (hpart.subset (by simp))))

/-! ### Words of commands -/

namespace Command

/-- A character is a small letter or the capital of it. -/
def IsCase (letter c : Char) : Prop := c = letter ∨ c = letter.toUpper

/-- A text is a word, each letter small or capital, with white space around it. -/
def IsSpelled (word cs : List Char) : Prop :=
  ∃ before spelling after, cs = before ++ spelling ++ after ∧
    (∀ c ∈ before, Text.isWhiteSpace c = true) ∧ (∀ c ∈ after, Text.isWhiteSpace c = true) ∧
    List.Forall₂ IsCase word spelling

variable {word cs : List Char}

theorem map_toLower_eq_iff (hword : ∀ letter ∈ word, letter.isLower = true) :
    cs.map Char.toLower = word ↔ List.Forall₂ IsCase word cs := by
  induction word generalizing cs with
  | nil => rw [List.map_eq_nil_iff, List.forall₂_nil_left_iff]
  | cons letter word ih =>
    obtain ⟨hletter, hrest⟩ := List.forall_mem_cons.1 hword
    rcases cs with - | ⟨c, cs⟩
    · simp
    · rw [List.map_cons, List.cons.injEq, List.forall₂_cons, ih hrest, Text.toLower_eq_iff hletter,
        IsCase]

/-- What a word is spelled with are letters of the word, small or capital. -/
theorem mem_of_spelling {spelling : List Char} (hword : ∀ letter ∈ word, letter.isLower = true)
    (h : List.Forall₂ IsCase word spelling) :
    ∀ c ∈ spelling, c.toLower ∈ word ∧ c.isAlpha = true := by
  intro c hc
  have hmem : c.toLower ∈ word := (map_toLower_eq_iff hword).2 h ▸ List.mem_map_of_mem hc
  exact ⟨hmem, Text.isAlpha_of_toLower (hword _ hmem) rfl⟩

/-- What is spelled is found by trimming, and by making all letters small. -/
theorem isSpelled_iff (hword : ∀ letter ∈ word, letter.isLower = true) :
    IsSpelled word cs ↔ (Text.trim cs).map Char.toLower = word := by
  constructor
  · rintro ⟨before, spelling, after, rfl, hbefore, hafter, hspelling⟩
    have hletters : ∀ c ∈ spelling, Text.isWhiteSpace c = false :=
      fun c hc ↦ Text.isWhiteSpace_of_isAlpha (mem_of_spelling hword hspelling c hc).2
    rw [Text.trim_append hbefore hafter (fun c hc ↦ hletters c (List.mem_of_mem_head? hc))
      fun c hc ↦ hletters c (List.mem_of_getLast? hc)]
    exact (map_toLower_eq_iff hword).2 hspelling
  · intro htrim
    obtain ⟨before, after, hbefore, hafter, hcs⟩ := Text.exists_eq_append_trim cs
    exact ⟨before, Text.trim cs, after, hcs, hbefore, hafter, (map_toLower_eq_iff hword).1 htrim⟩

/-- A word without an n, however it is spelled, has neither a digit nor an n around it or in it. -/
theorem IsSpelled.no_digit_or_n (hword : ∀ letter ∈ word, letter.isLower = true)
    (hn : 'n' ∉ word) (h : IsSpelled word cs) :
    ∀ c ∈ cs, c.isDigit = false ∧ c.toLower ≠ 'n' := by
  obtain ⟨before, spelling, after, rfl, hbefore, hafter, hspelling⟩ := h
  have hwhite (c : Char) (h : Text.isWhiteSpace c = true) :
      c.isDigit = false ∧ c.toLower ≠ 'n' := by
    refine ⟨Text.isDigit_of_isWhiteSpace h, fun hc ↦ ?_⟩
    have halpha := Text.isAlpha_of_toLower (by decide) hc
    exact absurd h (Bool.eq_false_iff.1 (Text.isWhiteSpace_of_isAlpha halpha))
  intro c hc
  rcases List.mem_append.1 hc with hc | hc
  · rcases List.mem_append.1 hc with hc | hc
    · exact hwhite c (hbefore c hc)
    · obtain ⟨hmem, halpha⟩ := mem_of_spelling hword hspelling c hc
      exact ⟨Numeral.isDigit_of_isAlpha halpha, fun heq ↦ hn (heq ▸ hmem)⟩
  · exact hwhite c (hafter c hc)

/-! ### What a line asks for -/

theorem isLower_of_mem_exitWord : ∀ letter ∈ exitWord, letter.isLower = true :=
  List.all_eq_true.1 (by decide)

theorem isLower_of_mem_historyWord : ∀ letter ∈ historyWord, letter.isLower = true :=
  List.all_eq_true.1 (by decide)

variable {line : String}

theorem ofLine_eq_exit_iff : ofLine line = .exit ↔ IsSpelled exitWord line.toList := by
  rw [isSpelled_iff isLower_of_mem_exitWord, ofLine]
  split_ifs with hexit hhistory <;> simp [hexit]

theorem ofLine_eq_history_iff : ofLine line = .history ↔ IsSpelled historyWord line.toList := by
  rw [isSpelled_iff isLower_of_mem_historyWord, ofLine]
  split_ifs with hexit hhistory
  · simp [hexit]
  · simp [hhistory]
  · simp [hhistory]

/-- Any other line is an expression, and is kept as it is. -/
theorem ofLine_eq_evaluate (hexit : ¬IsSpelled exitWord line.toList)
    (hhistory : ¬IsSpelled historyWord line.toList) : ofLine line = .evaluate line := by
  rw [isSpelled_iff isLower_of_mem_exitWord] at hexit
  rw [isSpelled_iff isLower_of_mem_historyWord] at hhistory
  rw [ofLine, if_neg hexit, if_neg hhistory]

end Command

open Command (IsSpelled exitWord historyWord ofLine)

variable {word : List Char} {line : String}

/-! ### Commands have no value -/

/-- The word of a command has no value. -/
theorem evaluate_of_isSpelled (hword : ∀ letter ∈ word, letter.isLower = true)
    (hn : 'n' ∉ word) (h : IsSpelled word line.toList) :
    evaluate line = .error (.malformed (String.ofList (Text.dropBlanks line.toList))) := by
  have hnone := h.no_digit_or_n hword hn
  rw [evaluate, Evaluation.ofExpression_of_no_digit fun c hc ↦ (hnone c hc).1]
  refine Numeral.read_eq_malformed_iff.2 ⟨?_, String.toList_ofList⟩
  rw [Option.eq_none_iff_forall_ne_some]
  intro x hx
  -- a literal has a digit or an n, and dropping blanks brings neither into the line
  obtain ⟨c, hc, hmark⟩ := (Numeral.isLiteral_of_read? hx).exists_digit_or_n
  obtain ⟨hdigit, hletter⟩ := hnone c (List.mem_of_mem_filter hc)
  exact hmark.elim (Bool.eq_false_iff.1 hdigit) hletter

/-- A command has no value. -/
theorem evaluate_of_ofLine_ne (h : ofLine line ≠ .evaluate line) :
    evaluate line = .error (.malformed (String.ofList (Text.dropBlanks line.toList))) := by
  by_cases hexit : IsSpelled exitWord line.toList
  · exact evaluate_of_isSpelled Command.isLower_of_mem_exitWord (by decide) hexit
  · by_cases hhistory : IsSpelled historyWord line.toList
    · exact evaluate_of_isSpelled Command.isLower_of_mem_historyWord (by decide) hhistory
    · exact absurd (Command.ofLine_eq_evaluate hexit hhistory) h

/-! ### Lines with a value -/

/-- **Commands take no expression away.** A line ends the session, or shows the history, exactly if
it is the word for that, each letter small or capital, with white space around it; any other line is
an expression and is kept as it is. A line that has a value is always an expression: the value is
printed and recorded, and the session goes on. A line that is a command would be reported whole, but
for blanks, if it were an expression. -/
theorem commands_shadow_no_expression (line : String) :
    (ofLine line = .exit ↔ IsSpelled exitWord line.toList) ∧
    (ofLine line = .history ↔ IsSpelled historyWord line.toList) ∧
    (¬IsSpelled exitWord line.toList → ¬IsSpelled historyWord line.toList →
      ofLine line = .evaluate line) ∧
    (∀ value, evaluate line = .ok value → ofLine line = .evaluate line ∧
      ∀ (history : History) (w : World), (Session.respond history line w).1 = .continue ∧
        (Session.respond history line w).2.output =
          w.output.print ("Результат: " ++ value.render ++ "\n") ∧
        (Session.respond history line w).2.files =
          ((history.append line value : StateM World _).run w).2.files) ∧
    (ofLine line ≠ .evaluate line →
      evaluate line = .error (.malformed (String.ofList (Text.dropBlanks line.toList)))) := by
  refine ⟨Command.ofLine_eq_exit_iff, Command.ofLine_eq_history_iff, Command.ofLine_eq_evaluate,
    fun value hvalue ↦ ?_, evaluate_of_ofLine_ne⟩
  have hline : ofLine line = .evaluate line := by
    by_contra hcommand
    exact nomatch hvalue.symm.trans (evaluate_of_ofLine_ne hcommand)
  refine ⟨hline, fun history w ↦ ?_⟩
  obtain ⟨hflow, houtput⟩ := Session.output_respond_of_value hline hvalue w
  exact ⟨hflow, houtput, Session.files_respond_of_value hline hvalue w⟩

/-- A word that is a number and is no command; a command between white space that is no blank on one
side and is one on the other; and a word that looks like a command, with a long s in it. -/
theorem commands_shadow_no_expression_at_words :
    ofLine " -Infinity " = .evaluate " -Infinity " ∧
      evaluate "\u2003eXiT\t" = .error (.malformed "\u2003eXiT") ∧
      ofLine "hi\u017ftory" = .evaluate "hi\u017ftory" := by
  have hvalue : evaluate " -Infinity " = .ok (.infinity true) := by decide +kernel
  have hcommand : ofLine "\u2003eXiT\t" ≠ .evaluate "\u2003eXiT\t" := by decide +kernel
  have hdrop : String.ofList (Text.dropBlanks "\u2003eXiT\t".toList) = "\u2003eXiT" := by
    decide +kernel
  obtain ⟨-, -, -, hkept, -⟩ := commands_shadow_no_expression " -Infinity "
  obtain ⟨-, -, -, -, hmalformed⟩ := commands_shadow_no_expression "\u2003eXiT\t"
  obtain ⟨hexit, hhistory, hother, -⟩ := commands_shadow_no_expression "hi\u017ftory"
  exact ⟨(hkept _ hvalue).1, hdrop ▸ hmalformed hcommand,
    hother (hexit.not.1 (by decide +kernel)) (hhistory.not.1 (by decide +kernel))⟩

end TextCalculator
