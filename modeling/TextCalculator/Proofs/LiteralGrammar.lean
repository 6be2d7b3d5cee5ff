import Mathlib.Data.List.Chain
import TextCalculator.Expression.Seam
import TextCalculator.Proofs.Digits

/-!
# The grammar of number literals

`IsLiteral` is the grammar as a relation between a text and the number that it stands for: a sign,
and then a word or a decimal with a suffix letter, where the sign and the letter may be missing.
What is read as a number is in it (`isLiteral_of_read?`).

Of the operator characters a literal contains at most minus signs and plus signs
(`IsLiteral.eq_sign_of_mem`), and of the latter at most two, one in front and one after the mark of
the exponent (`IsLiteral.plus_placed`).
-/

namespace TextCalculator.Numeral

/-! ### The grammar -/

/-- A sign or none, and whether it is a minus. -/
inductive IsSign : List Char → Bool → Prop
  /-- No sign. -/
  | none : IsSign [] false
  /-- A plus sign. -/
  | plus : IsSign ['+'] false
  /-- A minus sign. -/
  | minus : IsSign ['-'] true

/-- Digits with a point among them or none, and the digits on either side of it. -/
inductive IsMantissa : List Char → List Char → List Char → Prop
  /-- No point. -/
  | whole {ds : List Char} (hds : IsDigits ds) : IsMantissa ds ds []
  /-- A point with digits on at least one side. -/
  | point {ds es : List Char} (hds : ∀ c ∈ ds, c.isDigit = true) (hes : ∀ c ∈ es, c.isDigit = true)
      (hne : ¬(ds = [] ∧ es = [])) : IsMantissa (ds ++ '.' :: es) ds es

/-- A mark with an integer after it or nothing, and the power of ten that it stands for. -/
inductive IsExponent : List Char → Int → Prop
  /-- No exponent. -/
  | none : IsExponent [] 0
  /-- Digits after the mark, perhaps with a sign. -/
  | mark {mark : Char} {sign ds : List Char} {negative : Bool} (hmark : mark = 'e' ∨ mark = 'E')
      (hsign : IsSign sign negative) (hds : IsDigits ds) :
      IsExponent (mark :: (sign ++ ds)) (if negative then -(value ds : Int) else value ds)

/-- A suffix letter or none. -/
inductive IsSuffixPart : List Char → Prop
  /-- No letter. -/
  | none : IsSuffixPart []
  /-- A letter. -/
  | letter {c : Char} (hc : isSuffix c = true) : IsSuffixPart [c]

/-- Number literals and the numbers that they stand for. -/
inductive IsLiteral : List Char → Binary64 → Prop
  /-- The word for an infinite magnitude. -/
  | infinity {sign : List Char} {negative : Bool} (hsign : IsSign sign negative) :
      IsLiteral (sign ++ NumberFormat.standard.infinity) (.infinity negative)
  /-- The word for what is not a number. -/
  | nan {sign : List Char} {negative : Bool} (hsign : IsSign sign negative) :
      IsLiteral (sign ++ NumberFormat.standard.nan) .nan
  /-- A decimal. -/
  | decimal {sign mantissa ds es exponent suffix : List Char} {negative : Bool} {n : Int}
      (hsign : IsSign sign negative) (hmantissa : IsMantissa mantissa ds es)
      (hexponent : IsExponent exponent n) (hsuffix : IsSuffixPart suffix) :
      IsLiteral (sign ++ (mantissa ++ (exponent ++ suffix)))
        (Decimal.toBinary64 ⟨value (ds ++ es), n - es.length⟩ negative)

/-! ### What is read is in the grammar -/

/-- What is read as a natural number are digits. -/
theorem isDigits_of_readDigits? {cs : List Char} {n : Nat} (h : readDigits? cs = some n) :
    IsDigits cs ∧ n = value cs := by
  rw [readDigits?] at h
  split at h
  · next hcs => exact ⟨⟨hcs.1, List.all_eq_true.1 hcs.2⟩, (Option.some.inj h).symm⟩
  · simp at h

/-- What is read as an integer is a sign or none and digits. -/
theorem exists_sign_of_readInteger? {cs : List Char} {n : Int} (h : readInteger? cs = some n) :
    ∃ sign negative ds, IsSign sign negative ∧ IsDigits ds ∧ cs = sign ++ ds ∧
      n = if negative then -(value ds : Int) else value ds := by
  unfold readInteger? at h
  split at h
  all_goals
    obtain ⟨m, hm, rfl⟩ := Option.map_eq_some_iff.1 h
    obtain ⟨k, hk, hcast⟩ := Option.bind_eq_some_iff.1 hm
    obtain rfl := Option.some.inj hcast
    obtain ⟨hds, rfl⟩ := isDigits_of_readDigits? hk
  · exact ⟨['-'], true, _, .minus, hds, rfl, rfl⟩
  · exact ⟨['+'], false, _, .plus, hds, rfl, rfl⟩
  · exact ⟨[], false, _, .none, hds, rfl, rfl⟩

/-- What is read as an exponent is one. -/
theorem isExponent_of_readExponent? {cs : List Char} {n : Int} (h : readExponent? cs = some n) :
    IsExponent cs n := by
  cases cs with
  | nil =>
    obtain rfl := Option.some.inj h
    exact .none
  | cons c cs =>
    rw [readExponent?] at h
    split at h
    · next hmark =>
      obtain ⟨sign, negative, ds, hsign, hds, rfl, rfl⟩ := exists_sign_of_readInteger? h
      exact .mark hmark hsign hds
    · simp at h

/-- The digits at the front of a text, with a point among them or none, are a mantissa. -/
theorem exists_mantissa (cs : List Char) {ds es rest : List Char}
    (hrun : fractionRun (digitRun cs).2 = (es, rest)) (hds : (digitRun cs).1 = ds)
    (hne : ¬(ds = [] ∧ es = [])) :
    ∃ mantissa, IsMantissa mantissa ds es ∧ cs = mantissa ++ rest := by
  have hwhole : ∀ c ∈ ds, c.isDigit = true := hds ▸ List.all_eq_true.1 List.all_takeWhile
  have hcs : ds ++ (digitRun cs).2 = cs := hds ▸ List.takeWhile_append_dropWhile
  unfold fractionRun at hrun
  split at hrun
  · next more hmore =>
    obtain ⟨rfl, rfl⟩ := Prod.mk.inj hrun
    refine ⟨ds ++ '.' :: more.takeWhile Char.isDigit,
      .point hwhole (List.all_eq_true.1 List.all_takeWhile) hne, ?_⟩
    rw [← hcs, hmore, List.append_assoc, List.cons_append, List.takeWhile_append_dropWhile]
  · obtain ⟨rfl, rfl⟩ := Prod.mk.inj hrun
    exact ⟨ds, .whole ⟨fun hnil ↦ hne ⟨hnil, rfl⟩, hwhole⟩, hcs.symm⟩

/-- What is read as a decimal is a mantissa and an exponent. The digits after the point lower the
power of ten. -/
theorem exists_mantissa_of_readDecimal? {cs : List Char} {d : Decimal}
    (h : readDecimal? cs = some d) :
    ∃ mantissa ds es exponent n, IsMantissa mantissa ds es ∧ IsExponent exponent n ∧
      cs = mantissa ++ exponent ∧ d = ⟨value (ds ++ es), n - es.length⟩ := by
  obtain ⟨es, exponent, hrun⟩ : ∃ es rest, fractionRun (digitRun cs).2 = (es, rest) := ⟨_, _, rfl⟩
  simp only [readDecimal?, hrun] at h
  split at h
  · simp at h
  · next hne =>
    obtain ⟨n, hn, rfl⟩ := Option.map_eq_some_iff.1 h
    obtain ⟨mantissa, hmantissa, hcs⟩ := exists_mantissa cs hrun rfl hne
    exact ⟨mantissa, _, es, exponent, n, hmantissa, isExponent_of_readExponent? hn, hcs, rfl⟩

/-- What is dropped at the end is a suffix letter or nothing. -/
theorem exists_suffix (cs : List Char) : ∃ suffix, IsSuffixPart suffix ∧
    cs = dropSuffix cs ++ suffix := by
  rw [dropSuffix]
  split
  · next hlast =>
    obtain ⟨c, hc, hsuffix⟩ := (Option.any_eq_true _ _).1 hlast
    obtain ⟨init, rfl⟩ := List.getLast?_eq_some_iff.1 hc
    exact ⟨[c], .letter hsuffix, by rw [List.dropLast_concat]⟩
  · exact ⟨[], .none, (List.append_nil cs).symm⟩

/-- What is taken from the front is a sign or nothing. -/
theorem exists_sign (cs : List Char) : ∃ sign, IsSign sign (splitSign cs).1 ∧
    cs = sign ++ (splitSign cs).2 := by
  unfold splitSign
  split
  · exact ⟨['-'], .minus, rfl⟩
  · exact ⟨['+'], .plus, rfl⟩
  · exact ⟨[], .none, rfl⟩

/-- What is read as a number is a literal of that number. -/
theorem isLiteral_of_read? {cs : List Char} {x : Binary64} (h : read? cs = some x) :
    IsLiteral cs x := by
  obtain ⟨sign, hsign, hcs⟩ := exists_sign cs
  rw [read?] at h
  generalize splitSign cs = signed at h hsign hcs
  obtain ⟨negative, rest⟩ := signed
  simp only [readMagnitude?] at h
  subst hcs
  split at h
  · next hword =>
    obtain rfl := Option.some.inj h
    exact hword ▸ .infinity hsign
  · split at h
    · next hword =>
      obtain rfl := Option.some.inj h
      exact hword ▸ .nan hsign
    -- the suffix is dropped from the end and the mantissa read from the front; the exponent is
    -- what is left between them
    · obtain ⟨d, hd, rfl⟩ := Option.map_eq_some_iff.1 h
      obtain ⟨suffix, hsuffix, hrest⟩ := exists_suffix rest
      obtain ⟨mantissa, ds, es, exponent, n, hmantissa, hexponent, hdecimal, rfl⟩ :=
        exists_mantissa_of_readDecimal? hd
      rw [hdecimal, List.append_assoc] at hrest
      rw [hrest]
      exact .decimal hsign hmantissa hexponent hsuffix

/-! ### Operator characters in a literal -/

/-- A sign is a minus or a plus. -/
theorem IsSign.eq_sign_of_mem {sign : List Char} {negative : Bool} (h : IsSign sign negative)
    {c : Char} (hc : c ∈ sign) : c = '-' ∨ c = '+' := by
  cases h with
  | none => simp at hc
  | plus => exact .inr (List.mem_singleton.1 hc)
  | minus => exact .inl (List.mem_singleton.1 hc)

/-- A text without operator characters. -/
def NoOperator (cs : List Char) : Prop := ∀ c ∈ cs, isOperatorChar c = false

/-- Two texts without operator characters are one without them. -/
theorem NoOperator.append {cs ds : List Char} (hcs : NoOperator cs) (hds : NoOperator ds) :
    NoOperator (cs ++ ds) :=
  fun c hc ↦ (List.mem_append.1 hc).elim (hcs c) (hds c)

theorem NoOperator.not_mem {cs : List Char} (h : NoOperator cs) {c : Char}
    (hop : isOperatorChar c = true) : c ∉ cs :=
  fun hc ↦ absurd (h c hc) (by simp [hop])

/-- Digits have no operator character among them. -/
theorem noOperator_of_digits {ds : List Char} (h : ∀ c ∈ ds, c.isDigit = true) : NoOperator ds :=
  fun c hc ↦ isOperatorChar_of_isDigit (h c hc)

theorem noOperator_infinity : NoOperator NumberFormat.standard.infinity := by
  simp [NoOperator, NumberFormat.standard, isOperatorChar]

theorem noOperator_nan : NoOperator NumberFormat.standard.nan := by
  simp [NoOperator, NumberFormat.standard, isOperatorChar]

/-- Neither has a mantissa, whose point is none. -/
theorem IsMantissa.noOperator {mantissa ds es : List Char} (h : IsMantissa mantissa ds es) :
    NoOperator mantissa := by
  cases h with
  | whole hds => exact noOperator_of_digits hds.2
  | point hds hes =>
    have hpoint : NoOperator ['.'] := by simp [NoOperator, isOperatorChar]
    exact (noOperator_of_digits hds).append (hpoint.append (noOperator_of_digits hes))

theorem IsSuffixPart.noOperator {suffix : List Char} (h : IsSuffixPart suffix) :
    NoOperator suffix := by
  intro c hc
  cases h with
  | none => simp at hc
  | letter hsuffix =>
    obtain rfl := List.mem_singleton.1 hc
    simp only [isSuffix, Bool.or_eq_true, decide_eq_true_eq] at hsuffix
    rcases hsuffix with ((rfl | rfl) | rfl) | rfl <;> decide

/-- The signs of a literal: one may stand in front, and one after the mark of the exponent. -/
theorem IsLiteral.exists_signs {cs : List Char} {x : Binary64} (h : IsLiteral cs x) :
    ∃ sign negative rest, IsSign sign negative ∧ cs = sign ++ rest ∧
      (NoOperator rest ∨ ∃ front mark second back, rest = front ++ mark :: second :: back ∧
        NoOperator front ∧ (mark = 'e' ∨ mark = 'E') ∧ (second = '-' ∨ second = '+') ∧
        NoOperator back) := by
  obtain @⟨sign, negative, hsign⟩ | @⟨sign, negative, hsign⟩ |
    @⟨sign, mantissa, ds, es, exponent, suffix, negative, n, hsign, hmantissa, hexponent,
      hsuffix⟩ := h
  · exact ⟨sign, negative, _, hsign, rfl, .inl noOperator_infinity⟩
  · exact ⟨sign, negative, _, hsign, rfl, .inl noOperator_nan⟩
  · refine ⟨sign, negative, _, hsign, rfl, ?_⟩
    have hfront := hmantissa.noOperator
    obtain _ | @⟨mark, second, digits, minus, hmark, hsecond, hdigits⟩ := hexponent
    · exact .inl (hfront.append hsuffix.noOperator)
    · have hback := (noOperator_of_digits hdigits.2).append hsuffix.noOperator
      cases hsecond with
      | none =>
        have hletter : NoOperator [mark] := by
          rcases hmark with rfl | rfl <;> simp [NoOperator, isOperatorChar]
        exact .inl (hfront.append (hletter.append hback))
      | plus => exact .inr ⟨mantissa, mark, '+', _, by simp, hfront, hmark, .inr rfl, hback⟩
      | minus => exact .inr ⟨mantissa, mark, '-', _, by simp, hfront, hmark, .inl rfl, hback⟩

/-- The operator characters of a literal are its signs. -/
theorem IsLiteral.eq_sign_of_mem {cs : List Char} {x : Binary64} (h : IsLiteral cs x) {c : Char}
    (hc : c ∈ cs) (hop : isOperatorChar c = true) : c = '-' ∨ c = '+' := by
  obtain ⟨sign, negative, rest, hsign, rfl, hrest⟩ := h.exists_signs
  rcases List.mem_append.1 hc with hc | hc
  · exact hsign.eq_sign_of_mem hc
  obtain hnone | ⟨front, mark, second, back, rfl, hfront, hmark, hsecond, hback⟩ := hrest
  · exact absurd hc (hnone.not_mem hop)
  rcases List.mem_append.1 hc with hc | hc
  · exact absurd hc (hfront.not_mem hop)
  rcases List.mem_cons.1 hc with rfl | hc
  · rcases hmark with rfl | rfl <;> exact absurd hop (by decide)
  · rcases List.mem_cons.1 hc with rfl | hc
    · exact hsecond
    · exact absurd hc (hback.not_mem hop)

/-- A plus sign stands after the mark of an exponent. -/
abbrev PlusAfterMark (a b : Char) : Prop := b = '+' → a = 'e' ∨ a = 'E'

/-- A text without plus signs has none in a wrong place. -/
theorem isChain_of_plus_not_mem {cs : List Char} (h : '+' ∉ cs) : cs.IsChain PlusAfterMark := by
  refine (List.pairwise_of_forall_mem_list fun a _ b hb hplus ↦ ?_).isChain
  exact absurd (hplus ▸ hb) h

/-- A first character makes no difference to that, even if it is a plus sign. -/
theorem isChain_cons_of_plus_not_mem {cs : List Char} (a : Char) (h : '+' ∉ cs) :
    (a :: cs).IsChain PlusAfterMark :=
  List.isChain_cons.2 ⟨fun _ hb hplus ↦ absurd (hplus ▸ List.mem_of_mem_head? hb) h,
    isChain_of_plus_not_mem h⟩

/-- What follows the sign of a literal has at most one plus sign, after the mark of the exponent. -/
theorem IsLiteral.exists_plus_split {cs : List Char} {x : Binary64} (h : IsLiteral cs x) :
    ∃ sign negative rest, IsSign sign negative ∧ cs = sign ++ rest ∧ rest.count '+' ≤ 1 ∧
      ('+' :: rest).IsChain PlusAfterMark := by
  have hplus : isOperatorChar '+' = true := by decide
  obtain ⟨sign, negative, rest, hsign, rfl, hrest⟩ := h.exists_signs
  refine ⟨sign, negative, rest, hsign, rfl, ?_⟩
  obtain hnone | ⟨front, mark, second, back, rfl, hfront, hmark, -, hback⟩ := hrest
  · have hmem := hnone.not_mem hplus
    exact ⟨by rw [List.count_eq_zero.2 hmem]; exact Nat.zero_le 1,
      isChain_cons_of_plus_not_mem '+' hmem⟩
  · have hne : mark ≠ '+' := by rcases hmark with rfl | rfl <;> decide
    refine ⟨?_, ?_⟩
    · rw [List.count_append, List.count_cons_of_ne hne, List.count_cons,
        List.count_eq_zero.2 (hfront.not_mem hplus), List.count_eq_zero.2 (hback.not_mem hplus)]
      split <;> omega
    · have hbefore : '+' ∉ front ++ [mark] := by
        simpa [hne.symm] using hfront.not_mem hplus
      have hchain := (isChain_cons_of_plus_not_mem '+' hbefore).append
        (isChain_cons_of_plus_not_mem second (hback.not_mem hplus)) (fun a ha b _ _ ↦ ?_)
      · simpa using hchain
      · rw [← List.cons_append, List.getLast?_concat] at ha
        exact Option.some.inj ha ▸ hmark

/-- A literal has at most two plus signs, and one that is not in front stands after the mark of the
exponent. -/
theorem IsLiteral.plus_placed {cs : List Char} {x : Binary64} (h : IsLiteral cs x) :
    cs.count '+' ≤ 2 ∧ cs.IsChain PlusAfterMark := by
  obtain ⟨sign, negative, rest, hsign, rfl, hcount, hchain⟩ := h.exists_plus_split
  cases hsign with
  | none => exact ⟨by simpa using Nat.le_succ_of_le hcount, (List.isChain_cons.1 hchain).2⟩
  | plus => exact ⟨by simpa using hcount, hchain⟩
  | minus =>
    obtain ⟨hhead, htail⟩ := List.isChain_cons.1 hchain
    refine ⟨by simpa using Nat.le_succ_of_le hcount,
      List.isChain_cons.2 ⟨fun b hb hplus ↦ ?_, htail⟩⟩
    exact absurd (hhead b hb hplus) (by decide)

end TextCalculator.Numeral
