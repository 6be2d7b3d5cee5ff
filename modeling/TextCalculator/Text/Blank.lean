import TextCalculator.Text.CodePointRange

/-!
# Blanks and white space

Two classes of characters that are easily confused. *Blanks* are six ASCII characters; they may
stand anywhere in an expression and mean nothing. *White space* is the Unicode property
`White_Space`; it may surround a command. Every blank is white space, but not the other way round.
-/

namespace TextCalculator.Text

/-- Space, tab, line feed, vertical tab, form feed and carriage return. -/
def isBlank (c : Char) : Bool :=
  c = ' ' || c = '\t' || c = '\n' || c = '\x0b' || c = '\x0c' || c = '\r'

/-- The ranges of `White_Space`, first and last code point, in ascending order. -/
def whiteSpaceRanges : List (Nat × Nat) :=
  [(0x09, 0x0d), (0x20, 0x20), (0x85, 0x85), (0xa0, 0xa0), (0x1680, 0x1680), (0x2000, 0x200a),
   (0x2028, 0x2029), (0x202f, 0x202f), (0x205f, 0x205f), (0x3000, 0x3000)]

/-- Whether a character has the property `White_Space`. -/
def isWhiteSpace (c : Char) : Bool := isWithin whiteSpaceRanges c

/-- A text without its blanks. -/
def dropBlanks (cs : List Char) : List Char := cs.filter (!isBlank ·)

/-- A text without blanks is left as it is. -/
theorem dropBlanks_eq_self {cs : List Char} (h : ∀ c ∈ cs, isBlank c = false) :
    dropBlanks cs = cs :=
  List.filter_eq_self.2 fun c hc ↦ by rw [h c hc, Bool.not_false]

/-- No blank is left. -/
theorem isBlank_of_mem_dropBlanks {cs : List Char} {c : Char} (hc : c ∈ dropBlanks cs) :
    isBlank c = false := by
  simpa using (List.mem_filter.1 hc).2

/-- A text without the white space at its end. -/
def trimEnd (cs : List Char) : List Char := (cs.reverse.dropWhile isWhiteSpace).reverse

/-- A text without the white space at its start and at its end. -/
def trim (cs : List Char) : List Char := trimEnd (cs.dropWhile isWhiteSpace)

end TextCalculator.Text
