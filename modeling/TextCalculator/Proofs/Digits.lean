import TextCalculator.Numeral.Literal
import TextCalculator.Text.Blank

/-!
# Reading runs of digits

What the reading of a decimal makes of texts that are put together from runs of digits. A run is
read as a whole when no digit follows it (`digitRun_append`); from this come the two shapes of a
decimal that matter, digits alone (`readDecimal?_digits`) and digits on both sides of a point
(`readDecimal?_point`).

A magnitude that begins and ends with a digit is neither a word nor followed by a suffix letter, so
reading it is reading its decimal (`readMagnitude?_of_digits`).
-/

namespace TextCalculator.Numeral

/-- Digits, at least one and nothing else. -/
def IsDigits (cs : List Char) : Prop := cs ≠ [] ∧ ∀ c ∈ cs, c.isDigit = true

/-- A text that does not go on with a digit. -/
def NoDigitNext (rest : List Char) : Prop := ∀ c ∈ rest.head?, c.isDigit = false

theorem noDigitNext_nil : NoDigitNext [] := by simp [NoDigitNext]

theorem noDigitNext_cons {c : Char} {rest : List Char} :
    NoDigitNext (c :: rest) ↔ c.isDigit = false := by simp [NoDigitNext]

namespace IsDigits

variable {ds es : List Char}

/-- The last part of digits is digits, if it is not empty. -/
theorem of_append_right (h : IsDigits (ds ++ es)) (hne : es ≠ []) : IsDigits es :=
  ⟨hne, fun c hc ↦ h.2 c (List.mem_append_right ds hc)⟩

/-- Digits begin with a digit. -/
theorem exists_cons (h : IsDigits ds) : ∃ d rest, ds = d :: rest ∧ d.isDigit = true := by
  obtain ⟨d, rest, rfl⟩ := List.exists_cons_of_ne_nil h.1
  exact ⟨d, rest, rfl, h.2 d (by simp)⟩

/-- Digits end with a digit. -/
theorem exists_concat (h : IsDigits ds) : ∃ init d, ds = init ++ [d] ∧ d.isDigit = true :=
  ⟨ds.dropLast, ds.getLast h.1, (List.dropLast_concat_getLast h.1).symm,
    h.2 _ (List.getLast_mem h.1)⟩

end IsDigits

/-- A digit is no blank. -/
theorem isBlank_of_isDigit {c : Char} (h : c.isDigit = true) : Text.isBlank c = false := by
  rw [← Bool.not_eq_true]
  intro hblank
  simp only [Text.isBlank, Bool.or_eq_true, decide_eq_true_eq] at hblank
  rcases hblank with ((((rfl | rfl) | rfl) | rfl) | rfl) | rfl <;> simp at h

/-- A digit is no sign. -/
theorem ne_sign_of_isDigit {c : Char} (h : c.isDigit = true) : c ≠ '-' ∧ c ≠ '+' := by
  refine ⟨?_, ?_⟩
  all_goals
    rintro rfl
    simp at h

/-- A letter is no digit. -/
theorem isDigit_of_isAlpha {c : Char} (h : c.isAlpha = true) : c.isDigit = false := by
  rw [← Bool.not_eq_true]
  intro hdigit
  have hle : c.val ≤ '9'.val := of_decide_eq_true (Bool.and_eq_true_iff.1 hdigit).2
  rcases Bool.or_eq_true_iff.1 h with hupper | hlower
  · have hge : 'A'.val ≤ c.val ∧ c.val ≤ 'Z'.val := of_decide_eq_true hupper
    exact absurd (UInt32.le_trans hge.1 hle) (by decide)
  · have hge : 'a'.val ≤ c.val := of_decide_eq_true (Bool.and_eq_true_iff.1 hlower).1
    exact absurd (UInt32.le_trans hge hle) (by decide)

/-- A digit is no suffix letter. -/
theorem isSuffix_of_isDigit {c : Char} (h : c.isDigit = true) : isSuffix c = false := by
  rw [← Bool.not_eq_true]
  intro hsuffix
  simp only [isSuffix, Bool.or_eq_true, decide_eq_true_eq] at hsuffix
  rcases hsuffix with ((rfl | rfl) | rfl) | rfl <;> simp at h

theorem isDigits_singleton {d : Char} (hd : d.isDigit = true) : IsDigits [d] :=
  ⟨by simp, by simpa using hd⟩

/-- A number is written with digits. -/
theorem isDigits_digits (n : Nat) : IsDigits (digits n) :=
  ⟨Nat.toDigits_ne_nil, fun _ ↦ Nat.isDigit_of_mem_toDigits (by decide) (by decide)⟩

/-! ### Runs -/

/-- Digits that no other one follows are taken up to their end. -/
theorem takeWhile_isDigit_append {ds rest : List Char} (hds : ∀ c ∈ ds, c.isDigit = true)
    (hrest : NoDigitNext rest) : (ds ++ rest).takeWhile Char.isDigit = ds := by
  rw [List.takeWhile_append_of_pos hds]
  cases rest with
  | nil => simp
  | cons c rest => simp [noDigitNext_cons.1 hrest]

theorem dropWhile_isDigit_append {ds rest : List Char} (hds : ∀ c ∈ ds, c.isDigit = true)
    (hrest : NoDigitNext rest) : (ds ++ rest).dropWhile Char.isDigit = rest := by
  rw [List.dropWhile_append_of_pos hds]
  cases rest with
  | nil => simp
  | cons c rest => simp [noDigitNext_cons.1 hrest]

/-- So are they when the rest is asked for, too. -/
theorem digitRun_append {ds rest : List Char} (hds : ∀ c ∈ ds, c.isDigit = true)
    (hrest : NoDigitNext rest) : digitRun (ds ++ rest) = (ds, rest) := by
  rw [digitRun, takeWhile_isDigit_append hds hrest, dropWhile_isDigit_append hds hrest]

/-! ### Decimals -/

theorem readDigits?_digits {ds : List Char} (hds : IsDigits ds) :
    readDigits? ds = some (value ds) := by
  rw [readDigits?, if_pos ⟨hds.1, List.all_eq_true.2 hds.2⟩]

/-- Digits on at least one side of a point, and an exponent. -/
theorem readDecimal?_point {ds es rest : List Char} (hds : ∀ c ∈ ds, c.isDigit = true)
    (hes : ∀ c ∈ es, c.isDigit = true) (hne : ¬(ds = [] ∧ es = [])) (hrest : NoDigitNext rest) :
    readDecimal? (ds ++ '.' :: (es ++ rest)) =
      (readExponent? rest).map fun exponent ↦ ⟨value (ds ++ es), exponent - es.length⟩ := by
  have whole : digitRun (ds ++ '.' :: (es ++ rest)) = (ds, '.' :: (es ++ rest)) :=
    digitRun_append hds (noDigitNext_cons.2 (by decide))
  have fraction : fractionRun ('.' :: (es ++ rest)) = (es, rest) := digitRun_append hes hrest
  simp only [readDecimal?, whole, fraction, if_neg hne]

/-- Digits without a point. -/
theorem readDecimal?_digits {ds : List Char} (hds : IsDigits ds) :
    readDecimal? ds = some ⟨value ds, 0⟩ := by
  have whole : digitRun ds = (ds, []) := by simpa using digitRun_append hds.2 noDigitNext_nil
  simp [readDecimal?, whole, fractionRun, hds.1, readExponent?]

/-! ### Magnitudes and signs -/

theorem dropSuffix_of_digit {init : List Char} {d : Char} (hd : d.isDigit = true) :
    dropSuffix (init ++ [d]) = init ++ [d] := by
  simp [dropSuffix, isSuffix_of_isDigit hd]

/-- A magnitude that begins and ends with a digit is read as a decimal. -/
theorem readMagnitude?_of_digits {cs : List Char} (negative : Bool)
    (hfirst : ∃ d rest, cs = d :: rest ∧ d.isDigit = true)
    (hlast : ∃ init d, cs = init ++ [d] ∧ d.isDigit = true) :
    readMagnitude? negative cs = (readDecimal? cs).map (·.toBinary64 negative) := by
  obtain ⟨d, rest, hcons, hd⟩ := hfirst
  obtain ⟨init, e, hconcat, he⟩ := hlast
  have notInfinity : cs ≠ NumberFormat.standard.infinity := by
    rintro rfl
    obtain rfl : 'I' = d := (List.cons.inj hcons).1
    simp at hd
  have notNan : cs ≠ NumberFormat.standard.nan := by
    rintro rfl
    obtain rfl : 'N' = d := (List.cons.inj hcons).1
    simp at hd
  rw [readMagnitude?, if_neg notInfinity, if_neg notNan, hconcat, dropSuffix_of_digit he]

/-- Without a sign at the front nothing is taken off. -/
theorem splitSign_cons {c : Char} {rest : List Char} (h : c ≠ '-' ∧ c ≠ '+') :
    splitSign (c :: rest) = (false, c :: rest) := by
  unfold splitSign
  split
  · next heq => exact absurd (List.cons.inj heq).1 h.1
  · next heq => exact absurd (List.cons.inj heq).1 h.2
  · rfl

/-- A sign in front of a magnitude that begins with a digit, or none, is read as the sign. -/
theorem read?_signed {cs : List Char} (negative : Bool)
    (hfirst : ∃ d rest, cs = d :: rest ∧ d.isDigit = true) :
    read? (signed negative cs) = readMagnitude? negative cs := by
  obtain ⟨d, rest, rfl, hd⟩ := hfirst
  cases negative with
  | false =>
    simp only [signed, Bool.false_eq_true, if_false, read?, splitSign_cons (ne_sign_of_isDigit hd)]
  | true => rfl

/-- Digits after a minus sign or without one are read as a whole number. -/
theorem read?_signed_digits (negative : Bool) {ds : List Char} (hds : IsDigits ds) :
    read? (signed negative ds) = some (Decimal.toBinary64 ⟨value ds, 0⟩ negative) := by
  rw [read?_signed negative hds.exists_cons,
    readMagnitude?_of_digits negative hds.exists_cons hds.exists_concat, readDecimal?_digits hds,
    Option.map_some]

end TextCalculator.Numeral
