import TextCalculator.Numeral.Format
import TextCalculator.Operator

/-!
# Seams

A *seam* is a place in a text where a digit is followed by an operator character. Every operation
that can be carried out has a seam between its left operand and its operator, and a written number
has none (`seams_write`). That is why evaluation ends: each round puts a written number in place of
an operation.
-/

namespace TextCalculator

/-- The characters that operators are written with. -/
def isOperatorChar (c : Char) : Bool :=
  c = '^' || c = '*' || c = '/' || c = '%' || c = '+' || c = '-'

/-- One if the characters, next to each other, form a seam. -/
def seam (a b : Char) : Nat := if a.isDigit && isOperatorChar b then 1 else 0

/-- The number of seams in a text. -/
def seams : List Char → Nat
  | a :: b :: cs => seam a b + seams (b :: cs)
  | _ => 0

/-- One if two texts, one after the other, form a seam where they meet. -/
def meetingSeam (xs ys : List Char) : Nat :=
  match xs.getLast?, ys.head? with
  | some a, some b => seam a b
  | _, _ => 0

/-! ### Seams of a concatenation -/

/-- The seams of two texts in a row are those of each and, where they meet, one more or none. -/
theorem seams_append (xs ys : List Char) :
    seams (xs ++ ys) = seams xs + meetingSeam xs ys + seams ys := by
  induction xs with
  | nil => simp [seams, meetingSeam]
  | cons a xs ih =>
    -- seams are counted two characters at a time, so the second character is looked at too
    cases xs with
    | nil => cases ys <;> simp [seams, meetingSeam]
    | cons b xs =>
      have meeting : meetingSeam (a :: b :: xs) ys = meetingSeam (b :: xs) ys := by
        simp [meetingSeam, List.getLast?_cons_cons]
      have joined : seams (a :: b :: xs ++ ys) = seam a b + seams (b :: xs ++ ys) := rfl
      rw [joined, ih, meeting]
      simp only [seams]
      omega

/-- Where two texts meet, only the first character of the second one counts. -/
theorem meetingSeam_append_right {xs ys zs : List Char} (h : ys ≠ []) :
    meetingSeam xs (ys ++ zs) = meetingSeam xs ys := by
  cases ys with
  | nil => exact absurd rfl h
  | cons y ys => simp [meetingSeam]

/-- After a digit there is a seam wherever there is one after any other character. -/
theorem meetingSeam_le_of_digit {xs ws ys : List Char} {d : Char} (hd : d.isDigit = true) :
    meetingSeam ws ys ≤ meetingSeam (xs ++ [d]) ys := by
  simp only [meetingSeam, List.getLast?_append, List.getLast?_singleton, Option.some_or]
  cases ws.getLast? <;> cases ys.head? <;> simp only [seam, hd, Bool.true_and, Nat.le_refl,
    Nat.zero_le]
  split
  · next h => simp [(Bool.and_eq_true _ _ ▸ h : _ ∧ _).2]
  · exact Nat.zero_le _

/-- Without operator characters there are no seams. -/
theorem seams_eq_zero_of_forall {cs : List Char} (h : ∀ c ∈ cs, isOperatorChar c = false) :
    seams cs = 0 := by
  fun_induction seams cs with
  | case1 a b cs ih =>
    rw [ih fun c hc ↦ h c (List.mem_cons_of_mem _ hc)]
    simp [seam, h b (by simp)]
  | case2 => rfl

/-- A minus sign in front makes no seam, since it is no digit. -/
theorem seams_minus_cons (cs : List Char) : seams ('-' :: cs) = seams cs := by
  cases cs with
  | nil => rfl
  | cons c cs => simp [seams, seam, show Char.isDigit '-' = false by decide]

/-! ### Written numbers have no seam -/

theorem isOperatorChar_of_isDigit {c : Char} (h : c.isDigit = true) : isOperatorChar c = false := by
  rw [← Bool.not_eq_true]
  intro hop
  simp only [isOperatorChar, Bool.or_eq_true, decide_eq_true_eq] at hop
  rcases hop with ((((rfl | rfl) | rfl) | rfl) | rfl) | rfl <;> simp at h

namespace Numeral

/-- The digits of a number have no operator character among them. -/
theorem not_isOperatorChar_of_mem_digits {n : Nat} {c : Char} (h : c ∈ digits n) :
    isOperatorChar c = false :=
  isOperatorChar_of_isDigit (Nat.isDigit_of_mem_toDigits (by decide) (by decide) h)

/-- A written integer has no seam: its only operator character is a sign in front. -/
theorem seams_integer (n : Int) : seams (integer n) = 0 := by
  cases n with
  | ofNat n => exact seams_eq_zero_of_forall fun _ ↦ not_isOperatorChar_of_mem_digits
  | negSucc n =>
    rw [integer, seams_minus_cons]
    exact seams_eq_zero_of_forall fun _ ↦ not_isOperatorChar_of_mem_digits

/-- Plain notation has digits and a point, and so no seam. -/
theorem seams_plain (d : Decimal) : seams (plain d) = 0 := by
  refine seams_eq_zero_of_forall fun c hc ↦ ?_
  have zero : isOperatorChar '0' = false := by decide
  have point : isOperatorChar '.' = false := by decide
  simp only [plain] at hc
  split at hc
  · simp only [List.mem_append, List.mem_replicate, List.mem_cons, List.not_mem_nil, or_false] at hc
    rcases hc with (h | ⟨-, rfl⟩) | rfl | rfl
    · exact not_isOperatorChar_of_mem_digits h
    all_goals assumption
  · next n _ =>
    have mem : ∀ c ∈ padded (n + 2) (digits d.digits), isOperatorChar c = false := by
      intro c hc
      rcases List.mem_append.1 hc with h | h
      · rw [(List.mem_replicate.1 h).2]; exact zero
      · exact not_isOperatorChar_of_mem_digits h
    rcases List.mem_append.1 hc with h | h
    · exact mem c (List.mem_of_mem_take h)
    · rcases List.mem_cons.1 h with rfl | h
      · exact point
      · exact mem c (List.mem_of_mem_drop h)

/-- Scientific notation has no seam either: the sign of its exponent comes after a letter. -/
theorem seams_scientific (d : Decimal) : seams (scientific .standard d) = 0 := by
  have memDigits : ∀ c ∈ digits d.digits, isOperatorChar c = false :=
    fun _ ↦ not_isOperatorChar_of_mem_digits
  simp only [scientific]
  split
  · rfl
  · next first rest hdigits =>
    rw [hdigits] at memDigits
    have mantissa : ∀ c ∈ first :: '.' :: (if rest = [] then ['0'] else rest) ++ ['E'],
        isOperatorChar c = false := by
      intro c hc
      simp only [List.cons_append, List.mem_cons, List.mem_append, List.not_mem_nil, or_false] at hc
      rcases hc with rfl | rfl | h | rfl
      · exact memDigits _ (by simp)
      · decide
      · split at h
        · rw [List.mem_singleton.1 h]; decide
        · exact memDigits _ (List.mem_cons_of_mem _ h)
      · decide
    -- the mark of the exponent stands between the digits and the sign, and is no digit
    have split : first :: '.' :: (if rest = [] then ['0'] else rest) ++
        NumberFormat.standard.exponentMark :: integer (d.exponent + rest.length) =
        (first :: '.' :: (if rest = [] then ['0'] else rest) ++ ['E']) ++
          integer (d.exponent + rest.length) := by
      simp [NumberFormat.standard]
    rw [split, seams_append, seams_eq_zero_of_forall mantissa, seams_integer]
    simp only [meetingSeam, List.getLast?_append, List.getLast?_singleton, Option.some_or]
    cases (integer (d.exponent + rest.length)).head? <;>
      simp [seam, show Char.isDigit 'E' = false by decide]

/-- The sign of a number adds no seam. -/
theorem seams_signed (negative : Bool) (cs : List Char) :
    seams (signed negative cs) = seams cs := by
  cases negative
  · rfl
  · exact seams_minus_cons cs

/-- A written number has no seam. -/
theorem seams_write (x : Binary64) : seams (write x) = 0 := by
  match x with
  | .nan => decide
  | .infinity negative =>
    rw [write, writeIn, seams_signed]; decide
  | .finite negative rank =>
    rw [write, writeIn, seams_signed, magnitude]
    split
    · exact seams_plain _
    · exact seams_scientific _

theorem plain_ne_nil (d : Decimal) : plain d ≠ [] := by
  simp only [plain]; split <;> simp

theorem scientific_ne_nil (format : NumberFormat) (d : Decimal) : scientific format d ≠ [] := by
  simp only [scientific]
  split
  · next h => exact absurd h Nat.toDigits_ne_nil
  · simp

/-- A written number is not empty. -/
theorem write_ne_nil (x : Binary64) : write x ≠ [] := by
  have signed_ne_nil : ∀ (negative : Bool) {cs : List Char}, cs ≠ [] → signed negative cs ≠ [] := by
    intro negative cs h
    cases negative
    · exact h
    · simp [signed]
  match x with
  | .nan => decide
  | .infinity negative => exact signed_ne_nil negative (by decide)
  | .finite negative rank =>
    refine signed_ne_nil negative ?_
    rw [magnitude]
    split
    · exact plain_ne_nil _
    · exact scientific_ne_nil _ _

end Numeral

end TextCalculator
