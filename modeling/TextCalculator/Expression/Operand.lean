/-!
# Operands

An operand is an optional minus sign, digits, and optionally a point with more digits after it. It
has no exponent. `Operand.split?` takes the longest operand off the front of a text.

Two facts carry the reading of expressions. A text splits into an operand and a rest that make it up
(`append_of_split?`), and an operand ends with a digit (`exists_digit_of_split?`).
-/

namespace TextCalculator.Operand

/-- Splits a text into an unsigned operand at its front and the rest. A point is part of the operand
only if a digit follows it. -/
def splitUnsigned? (cs : List Char) : Option (List Char × List Char) :=
  let whole := cs.takeWhile Char.isDigit
  let rest := cs.dropWhile Char.isDigit
  if whole = [] then none
  else match rest with
  | '.' :: c :: more =>
    if c.isDigit then
      some (whole ++ '.' :: c :: more.takeWhile Char.isDigit, more.dropWhile Char.isDigit)
    else some (whole, rest)
  | _ => some (whole, rest)

/-- Splits a text into an operand at its front and the rest. -/
def split? : List Char → Option (List Char × List Char)
  | '-' :: cs => (splitUnsigned? cs).map fun (operand, rest) ↦ ('-' :: operand, rest)
  | cs => splitUnsigned? cs

/-! ### What a split is made of -/

theorem append_of_splitUnsigned? {cs operand rest : List Char}
    (h : splitUnsigned? cs = some (operand, rest)) : operand ++ rest = cs := by
  have whole := List.takeWhile_append_dropWhile (p := Char.isDigit) (l := cs)
  simp only [splitUnsigned?] at h
  split at h
  · simp at h
  · split at h
    · next c more hrest =>
      split at h
      · obtain ⟨rfl, rfl⟩ := by simpa using h
        rw [List.append_assoc, List.cons_append, List.cons_append,
          List.takeWhile_append_dropWhile, ← hrest, whole]
      · obtain ⟨rfl, rfl⟩ := by simpa using h
        exact whole
    · obtain ⟨rfl, rfl⟩ := by simpa using h
      exact whole

/-- An operand that is found and the rest are the whole text. -/
theorem append_of_split? {cs operand rest : List Char} (h : split? cs = some (operand, rest)) :
    operand ++ rest = cs := by
  unfold split? at h
  split at h
  · next cs =>
    obtain ⟨⟨u, r⟩, hu, he⟩ := Option.map_eq_some_iff.1 h
    obtain ⟨rfl, rfl⟩ := by simpa using he
    simpa using append_of_splitUnsigned? hu
  · exact append_of_splitUnsigned? h

/-- An unsigned operand ends in a digit. -/
theorem exists_digit_of_splitUnsigned? {cs operand rest : List Char}
    (h : splitUnsigned? cs = some (operand, rest)) :
    ∃ init d, operand = init ++ [d] ∧ d.isDigit = true := by
  -- the last character is that of the fraction if there is one, and of the whole part otherwise
  have last : ∀ ds : List Char, ds ≠ [] → (∀ d ∈ ds, d.isDigit = true) →
      ∃ init d, ds = init ++ [d] ∧ d.isDigit = true := fun ds hne hds ↦
    ⟨ds.dropLast, ds.getLast hne, (List.dropLast_concat_getLast hne).symm,
      hds _ (List.getLast_mem hne)⟩
  have digits : ∀ ds : List Char, ∀ d ∈ ds.takeWhile Char.isDigit, d.isDigit = true :=
    fun ds ↦ List.all_eq_true.1 List.all_takeWhile
  simp only [splitUnsigned?] at h
  split at h
  · simp at h
  · next hne =>
    split at h
    · next c more hrest =>
      split at h
      · next hc =>
        obtain ⟨rfl, rfl⟩ := by simpa using h
        obtain ⟨init, d, hd, hdigit⟩ := last (c :: more.takeWhile Char.isDigit) (by simp)
          (by simpa [hc] using digits more)
        exact ⟨cs.takeWhile Char.isDigit ++ '.' :: init, d, by rw [hd]; simp, hdigit⟩
      · obtain ⟨rfl, rfl⟩ := by simpa using h
        exact last _ hne (digits cs)
    · obtain ⟨rfl, rfl⟩ := by simpa using h
      exact last _ hne (digits cs)

/-- An operand ends with a digit. -/
theorem exists_digit_of_split? {cs operand rest : List Char}
    (h : split? cs = some (operand, rest)) :
    ∃ init d, operand = init ++ [d] ∧ d.isDigit = true := by
  unfold split? at h
  split at h
  · obtain ⟨⟨u, r⟩, hu, he⟩ := Option.map_eq_some_iff.1 h
    obtain ⟨rfl, rfl⟩ := by simpa using he
    obtain ⟨init, d, rfl, hd⟩ := exists_digit_of_splitUnsigned? hu
    exact ⟨'-' :: init, d, rfl, hd⟩
  · exact exists_digit_of_splitUnsigned? h

/-! ### A longer operand -/

/-- A digit in front of an unsigned operand makes a longer one. -/
theorem splitUnsigned?_cons {cs operand rest : List Char} {d : Char} (hd : d.isDigit = true)
    (h : splitUnsigned? cs = some (operand, rest)) :
    splitUnsigned? (d :: cs) = some (d :: operand, rest) := by
  simp only [splitUnsigned?, List.takeWhile_cons, List.dropWhile_cons, hd, if_true] at h ⊢
  split at h
  · simp at h
  · simp only [reduceCtorEq, if_false]
    split at h
    · split at h <;> simp_all
    · simp_all

/-- An operand that does not begin with a minus sign has no sign. -/
theorem split?_eq_splitUnsigned? {cs : List Char} (h : cs.head? ≠ some '-') :
    split? cs = splitUnsigned? cs := by
  unfold split?
  split
  · simp at h
  · rfl

/-- A digit in front of an operand makes a longer one, unless the operand begins with a minus
sign. -/
theorem split?_cons {cs operand rest : List Char} {d : Char} (hd : d.isDigit = true)
    (hsign : cs.head? ≠ some '-') (h : split? cs = some (operand, rest)) :
    split? (d :: cs) = some (d :: operand, rest) := by
  rw [split?_eq_splitUnsigned? hsign] at h
  rw [split?_eq_splitUnsigned? (by rintro ⟨⟩; simp at hd), splitUnsigned?_cons hd h]

end TextCalculator.Operand
