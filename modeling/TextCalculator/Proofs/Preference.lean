import TextCalculator.Proofs.Occurrence

/-!
# Matching in the order of preference

`[0-9]+` and `(\.[0-9]+)?` match a text in several ways. A matcher that goes back on its choices
tries them in an order of preference, more before less, and settles on the first way in which what
follows matches too. `Operand.ways` and `Redex.ways` are all ways in this order, and
`Redex.firstWay?` settles on the first one at the leftmost place that has any.

Taking the longest operand once and for all comes to the same (`Redex.find?_eq_firstWay?`). Going
back never helps: behind a shorter operand there is a digit or a point, with which no operator
begins.
-/

namespace TextCalculator

namespace Operand

open Numeral

/-! ### Ways to take an operand off a text -/

/-- The ways to take at least one digit off the front of a text, more digits before fewer. -/
def digitWays : List Char → List (List Char × List Char)
  | [] => []
  | c :: cs =>
    if c.isDigit then
      (digitWays cs).map (fun (ds, rest) ↦ (c :: ds, rest)) ++ [([c], cs)]
    else []

/-- The ways to take a point with digits after it off the front of a text, and last the one to take
nothing. -/
def fractionWays : List Char → List (List Char × List Char)
  | '.' :: cs => (digitWays cs).map (fun (es, rest) ↦ ('.' :: es, rest)) ++ [([], '.' :: cs)]
  | cs => [([], cs)]

/-- The ways to take an operand without a sign off the front of a text. -/
def unsignedWays (cs : List Char) : List (List Char × List Char) :=
  (digitWays cs).flatMap fun (ds, rest) ↦
    (fractionWays rest).map fun (fraction, rest) ↦ (ds ++ fraction, rest)

/-- The ways to take an operand off the front of a text, first those with a minus sign. -/
def ways : List Char → List (List Char × List Char)
  | '-' :: cs =>
    (unsignedWays cs).map (fun (operand, rest) ↦ ('-' :: operand, rest)) ++ unsignedWays ('-' :: cs)
  | cs => unsignedWays cs

/-- The first way, if there is any, is the given one, and after all others the text goes on with a
digit or a point. -/
inductive Prefers : Option (List Char × List Char) → List (List Char × List Char) → Prop
  /-- There is no way. -/
  | noWay : Prefers none []
  /-- There is a first way. -/
  | first {best : List Char × List Char} {others : List (List Char × List Char)}
      (hothers : ∀ way ∈ others, ¬NoExtension way.2) : Prefers (some best) (best :: others)

namespace Prefers

variable {best : List Char × List Char} {ways more : List (List Char × List Char)}

theorem append (h : Prefers (some best) ways) (hmore : ∀ way ∈ more, ¬NoExtension way.2) :
    Prefers (some best) (ways ++ more) := by
  cases h with
  | first hothers => exact .first (List.forall_mem_append.2 ⟨hothers, hmore⟩)

/-- More may be taken off in front of every way. -/
theorem map {best? : Option (List Char × List Char)} (h : Prefers best? ways) (front : List Char) :
    Prefers (best?.map fun (part, rest) ↦ (front ++ part, rest))
      (ways.map fun (part, rest) ↦ (front ++ part, rest)) := by
  cases h with
  | noWay => exact .noWay
  | first hothers => exact .first (List.forall_mem_map.2 hothers)

end Prefers

theorem not_noExtension_of_isDigit {c : Char} {rest : List Char} (hc : c.isDigit = true) :
    ¬NoExtension (c :: rest) := by simp [noExtension_cons, hc]

/-- A text begins with digits, if only none. -/
theorem exists_digits_append (cs : List Char) :
    ∃ ds rest, cs = ds ++ rest ∧ (∀ c ∈ ds, c.isDigit = true) ∧ NoDigitNext rest := by
  refine ⟨cs.takeWhile Char.isDigit, cs.dropWhile Char.isDigit,
    List.takeWhile_append_dropWhile.symm, List.all_eq_true.1 List.all_takeWhile, fun c hc ↦ ?_⟩
  have hhead := List.head?_dropWhile_not Char.isDigit cs
  rw [Option.mem_def.1 hc] at hhead
  simpa using hhead

theorem digitWays_eq_nil {rest : List Char} (h : NoDigitNext rest) : digitWays rest = [] := by
  rcases rest with - | ⟨c, rest⟩
  · rfl
  · rw [digitWays, noDigitNext_cons.1 h]
    rfl

/-- All digits are taken first, and after fewer of them the next digit follows. -/
theorem exists_digitWays {ds rest : List Char} (hds : IsDigits ds) (hrest : NoDigitNext rest) :
    ∃ others, digitWays (ds ++ rest) = (ds, rest) :: others ∧
      ∀ way ∈ others, ∃ d back, way.2 = d :: back ∧ d.isDigit = true := by
  induction ds with
  | nil => exact absurd rfl hds.1
  | cons d ds ih =>
    obtain ⟨hd, hmore⟩ := List.forall_mem_cons.1 hds.2
    rw [List.cons_append, digitWays, if_pos hd]
    rcases ds with - | ⟨e, ds⟩
    · exact ⟨[], by simp [digitWays_eq_nil hrest], by simp⟩
    · obtain ⟨others, hways, hothers⟩ := ih ⟨by simp, hmore⟩
      refine ⟨others.map (fun (ds, back) ↦ (d :: ds, back)) ++ [([d], e :: ds ++ rest)],
        by rw [hways]; rfl, ?_⟩
      simp only [List.mem_append, List.mem_map, List.mem_singleton]
      rintro way (⟨other, hother, rfl⟩ | rfl)
      · exact hothers other hother
      · exact ⟨e, ds ++ rest, rfl, hmore e (by simp)⟩

theorem fractionWays_of_ne {rest : List Char} (h : rest.head? ≠ some '.') :
    fractionWays rest = [([], rest)] := by
  rw [fractionWays]
  rintro cs rfl
  exact h rfl

/-- A fraction is taken if there is one, with all its digits. -/
theorem exists_fractionWays {ds rest : List Char} (hds : IsDigits ds) (hrest : NoDigitNext rest) :
    ∃ best, Prefers (some best) (fractionWays rest) ∧
      splitUnsigned? (ds ++ rest) = some (ds ++ best.1, best.2) := by
  have hwhole := takeWhile_isDigit_append hds.2 hrest
  have hafter := dropWhile_isDigit_append hds.2 hrest
  by_cases hpoint : rest.head? = some '.'
  · obtain ⟨more, rfl⟩ := List.head?_eq_some_iff.1 hpoint
    obtain ⟨es, back, rfl, hes, hback⟩ := exists_digits_append more
    by_cases hnil : es = []
    · -- a point without digits after it is left alone
      subst hnil
      rw [List.nil_append] at hwhole hafter ⊢
      refine ⟨([], '.' :: back), ?_, ?_⟩
      · rw [fractionWays, digitWays_eq_nil hback]
        exact .first (by simp)
      · simp only [splitUnsigned?, hwhole, hafter, hds.1, if_false, List.append_nil]
        rcases back with - | ⟨c, back⟩
        · rfl
        · simp [noDigitNext_cons.1 hback]
    · -- fewer digits of the fraction leave a digit behind, which no operator begins with
      refine ⟨('.' :: es, back), ?_, ?_⟩
      · obtain ⟨others, hways, hothers⟩ := exists_digitWays ⟨hnil, hes⟩ hback
        have hdigits : Prefers (some (es, back)) (digitWays (es ++ back)) := by
          rw [hways]
          refine .first fun way hway ↦ ?_
          obtain ⟨d, tail, hrest, hd⟩ := hothers way hway
          exact hrest ▸ not_noExtension_of_isDigit hd
        exact (hdigits.map ['.']).append (by simp [noExtension_cons])
      · have htext : ds ++ '.' :: (es ++ back) = ds ++ '.' :: es ++ back := by simp
        rw [htext, splitUnsigned?_point hds ⟨hnil, hes⟩ hback]
  · have hextension : NoExtension rest := fun c hc ↦
      ⟨hrest c hc, fun heq ↦ hpoint (heq ▸ Option.mem_def.1 hc)⟩
    refine ⟨([], rest), fractionWays_of_ne hpoint ▸ .first (by simp), ?_⟩
    rw [splitUnsigned?_append (.whole hds) hextension, List.append_nil]

theorem prefers_unsignedWays (cs : List Char) : Prefers (splitUnsigned? cs) (unsignedWays cs) := by
  obtain ⟨ds, rest, rfl, hds, hrest⟩ := exists_digits_append cs
  by_cases hnil : ds = []
  · subst hnil
    have hwhole : rest.takeWhile Char.isDigit = [] := takeWhile_isDigit_append hds hrest
    have hnone : splitUnsigned? rest = none := by simp only [splitUnsigned?, hwhole, if_true]
    rw [List.nil_append, hnone, unsignedWays, digitWays_eq_nil hrest]
    exact .noWay
  · obtain ⟨best, hfraction, hsplit⟩ := exists_fractionWays ⟨hnil, hds⟩ hrest
    obtain ⟨others, hways, hothers⟩ := exists_digitWays ⟨hnil, hds⟩ hrest
    rw [hsplit, unsignedWays, hways, List.flatMap_cons]
    refine (hfraction.map ds).append fun way hway ↦ ?_
    -- after fewer digits no fraction can be taken, and a digit follows
    obtain ⟨other, hother, hmem⟩ := List.mem_flatMap.1 hway
    obtain ⟨d, back, hback, hd⟩ := hothers other hother
    have hne : other.2.head? ≠ some '.' := by
      rintro hhead
      rw [hback] at hhead
      obtain rfl : d = '.' := Option.some.inj hhead
      simp at hd
    simp only [fractionWays_of_ne hne, List.map_singleton, List.mem_singleton] at hmem
    rw [hmem, hback]
    exact not_noExtension_of_isDigit hd

/-- The first way to take an operand off a text is to take the longest one, and after any other way
the text goes on with a digit or a point. -/
theorem prefers_ways (cs : List Char) : Prefers (split? cs) (ways cs) := by
  by_cases hsign : cs.head? = some '-'
  · obtain ⟨cs, rfl⟩ := List.head?_eq_some_iff.1 hsign
    have hnone : unsignedWays ('-' :: cs) = [] := by
      rw [unsignedWays, digitWays_eq_nil (noDigitNext_cons.2 (by decide))]
      rfl
    rw [split?_minus_cons, ways, hnone, List.append_nil]
    exact (prefers_unsignedWays cs).map ['-']
  · have hways : ways cs = unsignedWays cs := by
      rw [ways]
      rintro cs rfl
      exact hsign rfl
    rw [split?_eq_splitUnsigned? hsign, hways]
    exact prefers_unsignedWays cs

end Operand

namespace Redex

open Operand

/-! ### Ways to match an operation -/

/-- The ways to match what is left of an operation behind its left operand. -/
def waysBehind (op : Operator) (left afterLeft : List Char) : List Redex :=
  match dropWord? op.symbol afterLeft with
  | none => []
  | some afterOperator =>
    (Operand.ways afterOperator).map fun (right, after) ↦ ⟨[], left, op, right, after⟩

/-- The ways to match an operation at the front of a text: those of the left operand, and for each
of them those of the rest. -/
def ways (op : Operator) (cs : List Char) : List Redex :=
  (Operand.ways cs).flatMap fun way ↦ waysBehind op way.1 way.2

/-- The first way to match an operation at the leftmost place that has any. -/
def firstWay? (op : Operator) : List Char → Option Redex
  | [] => none
  | c :: cs =>
    match (ways op (c :: cs)).head? with
    | some r => some r
    | none => (firstWay? op cs).map (shift c)

/-- No operator begins with what could extend its left operand. -/
theorem waysBehind_eq_nil {op : Operator} {left afterLeft : List Char}
    (h : ¬NoExtension afterLeft) : waysBehind op left afterLeft = [] := by
  have hnone : dropWord? op.symbol afterLeft = none := by
    rw [Option.eq_none_iff_forall_ne_some]
    intro rest hrest
    exact h (dropWord?_eq_some.1 hrest ▸ noExtension_symbol_append op rest)
  rw [waysBehind, hnone]

/-- The first way is the one with the longest operands. -/
theorem head?_ways (op : Operator) (cs : List Char) : (ways op cs).head? = atFront? op cs := by
  have hleft := prefers_ways cs
  rw [ways, atFront?]
  generalize split? cs = best?, Operand.ways cs = lefts at hleft
  cases hleft with
  | noWay => rfl
  | @first best others hothers =>
    have hnil : (others.flatMap fun way ↦ waysBehind op way.1 way.2) = [] :=
      List.flatMap_eq_nil_iff.2 fun way hway ↦ waysBehind_eq_nil (hothers way hway)
    rw [List.flatMap_cons, hnil, List.append_nil, waysBehind]
    simp only
    rcases dropWord? op.symbol best.2 with - | afterOperator
    · rfl
    · have hright := prefers_ways afterOperator
      simp only
      generalize split? afterOperator = best?, Operand.ways afterOperator = rights at hright
      cases hright <;> rfl

/-- **Going back never helps.** Matching in the order of preference, at the leftmost place that has
a match, finds the redex that taking the longest operand once and for all finds. -/
theorem find?_eq_firstWay? (op : Operator) (cs : List Char) : find? op cs = firstWay? op cs := by
  induction cs with
  | nil => rfl
  | cons c cs ih =>
    rw [find?, firstWay?, head?_ways]
    rcases atFront? op (c :: cs) with - | r
    · exact congrArg (Option.map _) ih
    · rfl

end Redex

end TextCalculator
