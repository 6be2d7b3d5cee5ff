import TextCalculator.Expression.Operand
import TextCalculator.Expression.Seam
import TextCalculator.Proofs.Digits

/-!
# The language of operands

`IsOperand` is the grammar: an optional minus sign, digits, and optionally a point with more digits
after it. What `split?` takes off a text is in the language (`isOperand_of_split?`), and an operand
is taken off whole when nothing that could extend it follows (`split?_append`). Whether there is an
operand at the front shows in the first one or two characters (`split?_ne_none_iff`).

Every operand is a number literal (`exists_read?_of_isOperand`), so a round never fails to read one.
-/

namespace TextCalculator.Operand

open Numeral

/-- Operands without a sign. -/
inductive IsUnsigned : List Char → Prop
  /-- Digits. -/
  | whole {ds : List Char} (hds : IsDigits ds) : IsUnsigned ds
  /-- Digits on both sides of a point. -/
  | point {ds es : List Char} (hds : IsDigits ds) (hes : IsDigits es) : IsUnsigned (ds ++ '.' :: es)

/-- Operands. -/
inductive IsOperand : List Char → Prop
  /-- No sign. -/
  | unsigned {cs : List Char} (h : IsUnsigned cs) : IsOperand cs
  /-- A minus sign. -/
  | minus {cs : List Char} (h : IsUnsigned cs) : IsOperand ('-' :: cs)

/-- A text that does not extend an operand in front of it. -/
def NoExtension (rest : List Char) : Prop := ∀ c ∈ rest.head?, c.isDigit = false ∧ c ≠ '.'

theorem noExtension_nil : NoExtension [] := by simp [NoExtension]

/-- Whether a text extends an operand is seen from its first character. -/
theorem noExtension_cons {c : Char} {rest : List Char} :
    NoExtension (c :: rest) ↔ c.isDigit = false ∧ c ≠ '.' := by simp [NoExtension]

theorem NoExtension.noDigitNext {rest : List Char} (h : NoExtension rest) : NoDigitNext rest :=
  fun c hc ↦ (h c hc).1

/-! ### Both ends of an operand -/

namespace IsUnsigned

variable {cs : List Char}

/-- An unsigned operand begins with a digit. -/
theorem exists_cons (h : IsUnsigned cs) : ∃ d rest, cs = d :: rest ∧ d.isDigit = true := by
  cases h with
  | whole hds => exact hds.exists_cons
  | point hds hes =>
    obtain ⟨d, rest, rfl, hd⟩ := hds.exists_cons
    exact ⟨d, rest ++ '.' :: _, rfl, hd⟩

theorem exists_concat (h : IsUnsigned cs) : ∃ init d, cs = init ++ [d] ∧ d.isDigit = true := by
  cases h with
  | whole hds => exact hds.exists_concat
  | @point ds es hds hes =>
    obtain ⟨init, d, rfl, hd⟩ := hes.exists_concat
    exact ⟨ds ++ '.' :: init, d, by simp, hd⟩

end IsUnsigned

namespace IsOperand

variable {cs : List Char}

/-- An operand ends with a digit. -/
theorem exists_concat (h : IsOperand cs) : ∃ init d, cs = init ++ [d] ∧ d.isDigit = true := by
  cases h with
  | unsigned h => exact h.exists_concat
  | minus h =>
    obtain ⟨init, d, rfl, hd⟩ := h.exists_concat
    exact ⟨'-' :: init, d, rfl, hd⟩

end IsOperand

/-- A sign in front of an unsigned operand, or none, makes an operand. -/
theorem isOperand_signed {cs : List Char} (negative : Bool) (h : IsUnsigned cs) :
    IsOperand (signed negative cs) := by
  cases negative with
  | false => exact .unsigned h
  | true => exact .minus h

/-! ### The characters of an operand -/

/-- An unsigned operand has digits in it and perhaps a point. -/
theorem IsUnsigned.isDigit_or_point {cs : List Char} (h : IsUnsigned cs) {c : Char} (hc : c ∈ cs) :
    c.isDigit = true ∨ c = '.' := by
  cases h with
  | whole hds => exact .inl (hds.2 c hc)
  | point hds hes =>
    rcases List.mem_append.1 hc with hmem | hmem
    · exact .inl (hds.2 c hmem)
    · exact (List.mem_cons.1 hmem).elim .inr fun hmem ↦ .inl (hes.2 c hmem)

/-- An operand has digits in it, and perhaps a point and a minus sign. -/
theorem IsOperand.isDigit_or_mem {cs : List Char} (h : IsOperand cs) {c : Char} (hc : c ∈ cs) :
    c.isDigit = true ∨ c ∈ ['.', '-'] := by
  cases h with
  | unsigned h =>
    exact (h.isDigit_or_point hc).imp_right fun hpoint ↦ List.mem_cons.2 (.inl hpoint)
  | minus h =>
    rcases List.mem_cons.1 hc with rfl | hmem
    · exact .inr (by simp)
    · exact (h.isDigit_or_point hmem).imp_right fun hpoint ↦ List.mem_cons.2 (.inl hpoint)

/-- An operand has no blank. -/
theorem IsOperand.isBlank_of_mem {cs : List Char} (h : IsOperand cs) {c : Char} (hc : c ∈ cs) :
    Text.isBlank c = false := by
  have hmarks : ∀ c ∈ ['.', '-'], Text.isBlank c = false := by simp [Text.isBlank]
  exact (h.isDigit_or_mem hc).elim isBlank_of_isDigit (hmarks c)

/-- An operand has no operator character but a minus sign. -/
theorem IsOperand.eq_minus_of_mem {cs : List Char} (h : IsOperand cs) {c : Char} (hc : c ∈ cs)
    (hop : isOperatorChar c = true) : c = '-' := by
  have hmarks : ∀ c ∈ ['.', '-'], isOperatorChar c = true → c = '-' := by
    simp [isOperatorChar]
  rcases h.isDigit_or_mem hc with hdigit | hmark
  · rw [isOperatorChar_of_isDigit hdigit] at hop
    simp at hop
  · exact hmarks c hmark hop

/-- An operand has no letters. -/
theorem IsOperand.letter_not_mem {cs : List Char} (h : IsOperand cs) {c : Char}
    (halpha : c.isAlpha = true) : c ∉ cs := by
  have hmarks : ∀ c ∈ ['.', '-'], c.isAlpha = false := by simp
  intro hc
  rcases h.isDigit_or_mem hc with hdigit | hmark
  · exact absurd hdigit (Bool.eq_false_iff.1 (isDigit_of_isAlpha halpha))
  · exact absurd halpha (Bool.eq_false_iff.1 (hmarks c hmark))

/-! ### The end of an operand -/

/-- The end of an operand is an operand, unless it begins with the point. -/
theorem IsUnsigned.of_append_right {front part : List Char} (h : IsUnsigned (front ++ part))
    (hne : part ≠ []) : IsUnsigned part ∨ part.head? = some '.' := by
  generalize hcs : front ++ part = cs at h
  cases h with
  | whole hds => exact .inl (.whole ((hcs ▸ hds).of_append_right hne))
  | @point ds es hds hes =>
    rcases List.append_eq_append_iff.1 hcs with ⟨more, rfl, rfl⟩ | ⟨more, rfl, hpoint⟩
    · cases more with
      | nil => exact .inr rfl
      | cons d more => exact .inl (.point (hds.of_append_right (by simp)) hes)
    · cases more with
      | nil => exact .inr (by rw [← show '.' :: es = part from hpoint]; rfl)
      | cons d more =>
        obtain ⟨-, rfl⟩ := List.cons.inj hpoint
        exact .inl (.whole (hes.of_append_right hne))

/-- The last part of an operand is an operand, unless it begins with the point. -/
theorem IsOperand.of_append_right {front part : List Char} (h : IsOperand (front ++ part))
    (hne : part ≠ []) : IsOperand part ∨ part.head? = some '.' := by
  generalize hcs : front ++ part = cs at h
  cases h with
  | unsigned h =>
    subst hcs
    exact (h.of_append_right hne).imp_left .unsigned
  | minus h =>
    cases front with
    | nil =>
      obtain rfl : part = _ := hcs
      exact .inl (.minus h)
    | cons c front =>
      obtain ⟨-, rfl⟩ := List.cons.inj hcs
      exact (h.of_append_right hne).imp_left .unsigned

/-! ### Splitting a text -/

/-- Digits on both sides of a point are taken off with all digits that there are. -/
theorem splitUnsigned?_point {ds es rest : List Char} (hds : IsDigits ds) (hes : IsDigits es)
    (hrest : NoDigitNext rest) :
    splitUnsigned? (ds ++ '.' :: es ++ rest) = some (ds ++ '.' :: es, rest) := by
  obtain ⟨e, es, rfl, he⟩ := hes.exists_cons
  have hpoint : NoDigitNext ('.' :: e :: (es ++ rest)) := noDigitNext_cons.2 (by decide)
  have hdigits : ∀ c ∈ es, c.isDigit = true := fun c hc ↦ hes.2 c (List.mem_cons_of_mem e hc)
  have htext : ds ++ '.' :: (e :: es) ++ rest = ds ++ '.' :: e :: (es ++ rest) := by simp
  simp only [splitUnsigned?, htext, takeWhile_isDigit_append hds.2 hpoint,
    dropWhile_isDigit_append hds.2 hpoint, hds.1, he, if_true, if_false,
    takeWhile_isDigit_append hdigits hrest, dropWhile_isDigit_append hdigits hrest]

/-- An unsigned operand that nothing extends is found at the front of a text. -/
theorem splitUnsigned?_append {operand rest : List Char} (h : IsUnsigned operand)
    (hrest : NoExtension rest) : splitUnsigned? (operand ++ rest) = some (operand, rest) := by
  cases h with
  | whole hds =>
    simp only [splitUnsigned?, takeWhile_isDigit_append hds.2 hrest.noDigitNext,
      dropWhile_isDigit_append hds.2 hrest.noDigitNext, hds.1, if_false]
    split
    · exact absurd rfl (noExtension_cons.1 hrest).2
    · rfl
  | point hds hes => exact splitUnsigned?_point hds hes hrest.noDigitNext

theorem split?_minus_cons (cs : List Char) : split? ('-' :: cs) =
    (splitUnsigned? cs).map fun (operand, rest) ↦ ('-' :: operand, rest) := rfl

/-- A digit at the front is no minus sign. -/
theorem split?_of_digit {d : Char} {rest : List Char} (hd : d.isDigit = true) :
    split? (d :: rest) = splitUnsigned? (d :: rest) := by
  apply split?_eq_splitUnsigned?
  intro h
  obtain rfl : d = '-' := by simpa using h
  simp at hd

/-- An operand is taken off whole. -/
theorem split?_append {operand rest : List Char} (h : IsOperand operand)
    (hrest : NoExtension rest) : split? (operand ++ rest) = some (operand, rest) := by
  cases h with
  | unsigned h =>
    rw [← splitUnsigned?_append h hrest]
    obtain ⟨d, ds, rfl, hd⟩ := h.exists_cons
    exact split?_of_digit hd
  | minus h => rw [List.cons_append, split?_minus_cons, splitUnsigned?_append h hrest]; rfl

/-- What is found at the front of a text is an unsigned operand. -/
theorem isUnsigned_of_splitUnsigned? {cs operand rest : List Char}
    (h : splitUnsigned? cs = some (operand, rest)) : IsUnsigned operand := by
  have digits : ∀ ds : List Char, ∀ d ∈ ds.takeWhile Char.isDigit, d.isDigit = true :=
    fun ds ↦ List.all_eq_true.1 List.all_takeWhile
  simp only [splitUnsigned?] at h
  split at h
  · simp at h
  · next hne =>
    have hwhole : IsDigits (cs.takeWhile Char.isDigit) := ⟨hne, digits cs⟩
    split at h
    · next c more hrest =>
      split at h
      · next hc =>
        obtain ⟨rfl, -⟩ := by simpa using h
        refine .point hwhole ⟨by simp, fun e he ↦ ?_⟩
        rcases List.mem_cons.1 he with rfl | he
        · exact hc
        · exact digits more e he
      · obtain ⟨rfl, -⟩ := by simpa using h
        exact .whole hwhole
    · obtain ⟨rfl, -⟩ := by simpa using h
      exact .whole hwhole

/-- What is taken off a text is an operand. -/
theorem isOperand_of_split? {cs operand rest : List Char}
    (h : split? cs = some (operand, rest)) : IsOperand operand := by
  unfold split? at h
  split at h
  · obtain ⟨⟨u, r⟩, hu, he⟩ := Option.map_eq_some_iff.1 h
    obtain ⟨rfl, -⟩ := by simpa using he
    exact .minus (isUnsigned_of_splitUnsigned? hu)
  · exact .unsigned (isUnsigned_of_splitUnsigned? h)

/-! ### Whether there is an operand at the front -/

/-- A text with a digit at its front, or with a minus sign and a digit. -/
def BeginsOperand (cs : List Char) : Prop :=
  ∃ d rest, d.isDigit = true ∧ (cs = d :: rest ∨ cs = '-' :: d :: rest)

/-- What follows makes no difference to whether a text begins with an operand. -/
theorem beginsOperand_append {cs : List Char} (h : BeginsOperand cs) (rest : List Char) :
    BeginsOperand (cs ++ rest) := by
  obtain ⟨d, more, hd, rfl | rfl⟩ := h
  · exact ⟨d, more ++ rest, hd, .inl rfl⟩
  · exact ⟨d, more ++ rest, hd, .inr rfl⟩

theorem IsOperand.beginsOperand {cs : List Char} (h : IsOperand cs) : BeginsOperand cs := by
  cases h with
  | unsigned h =>
    obtain ⟨d, rest, rfl, hd⟩ := h.exists_cons
    exact ⟨d, rest, hd, .inl rfl⟩
  | minus h =>
    obtain ⟨d, rest, rfl, hd⟩ := h.exists_cons
    exact ⟨d, rest, hd, .inr rfl⟩

/-- A text that begins neither with a digit nor with a minus sign does not begin with an operand. -/
theorem not_beginsOperand_cons {c : Char} {rest : List Char} (hdigit : c.isDigit = false)
    (hminus : c ≠ '-') : ¬BeginsOperand (c :: rest) := by
  rintro ⟨d, more, hd, h | h⟩
  · obtain ⟨rfl, -⟩ := List.cons.inj h
    rw [hdigit] at hd
    simp at hd
  · exact hminus (List.cons.inj h).1

/-- Where there is a digit there is an unsigned operand. -/
theorem splitUnsigned?_ne_none {d : Char} {rest : List Char} (hd : d.isDigit = true) :
    splitUnsigned? (d :: rest) ≠ none := by
  simp only [splitUnsigned?, List.takeWhile_cons, hd, if_true, reduceCtorEq, if_false]
  split
  · split <;> simp
  · simp

/-- Whether an operand is found is seen from the first two characters. -/
theorem split?_ne_none_iff {cs : List Char} : split? cs ≠ none ↔ BeginsOperand cs := by
  constructor
  · intro h
    obtain ⟨⟨operand, rest⟩, hsplit⟩ := Option.ne_none_iff_exists'.1 h
    rw [← append_of_split? hsplit]
    exact beginsOperand_append (isOperand_of_split? hsplit).beginsOperand rest
  · rintro ⟨d, rest, hd, rfl | rfl⟩
    · rw [split?_of_digit hd]
      exact splitUnsigned?_ne_none hd
    · rw [split?_minus_cons, Ne, Option.map_eq_none_iff]
      exact splitUnsigned?_ne_none hd

theorem split?_eq_none_iff {cs : List Char} : split? cs = none ↔ ¬BeginsOperand cs := by
  rw [← split?_ne_none_iff, Ne, Classical.not_not]

/-! ### The number that an operand is -/

/-- An unsigned operand is read as a decimal. -/
theorem exists_readDecimal?_of_isUnsigned {cs : List Char} (h : IsUnsigned cs) :
    ∃ d, readDecimal? cs = some d := by
  cases h with
  | whole hds => exact ⟨_, readDecimal?_digits hds⟩
  | @point ds es hds hes =>
    refine ⟨⟨value (ds ++ es), 0 - es.length⟩, ?_⟩
    simpa [readExponent?] using readDecimal?_point hds.2 hes.2 (fun h ↦ hds.1 h.1) noDigitNext_nil

/-- Every operand is a number literal. -/
theorem exists_read?_of_isOperand {cs : List Char} (h : IsOperand cs) :
    ∃ x, read? cs = some x := by
  have magnitude : ∀ (negative : Bool) {u : List Char}, IsUnsigned u →
      ∃ x, read? (signed negative u) = some x := by
    intro negative u hu
    obtain ⟨d, hd⟩ := exists_readDecimal?_of_isUnsigned hu
    refine ⟨d.toBinary64 negative, ?_⟩
    rw [read?_signed negative hu.exists_cons,
      readMagnitude?_of_digits negative hu.exists_cons hu.exists_concat, hd, Option.map_some]
  cases h with
  | unsigned h => exact magnitude false h
  | minus h => exact magnitude true h

end TextCalculator.Operand
