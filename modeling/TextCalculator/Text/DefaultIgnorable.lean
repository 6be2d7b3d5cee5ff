import TextCalculator.Text.CodePointRange

/-!
# Characters that may be left out of display

The characters with the Unicode property `Default_Ignorable_Code_Point`: joiners, fillers and other
signs that a display without support for them leaves out. Most of them are not printable; the
fillers of Hangul (U+115F, U+1160, U+3164, U+FFA0) are letters by their general category.
-/

namespace TextCalculator.Text

/-- The ranges of `Default_Ignorable_Code_Point`, first and last code point, in ascending order. -/
def defaultIgnorableRanges : List (Nat × Nat) :=
  [(0xad, 0xad), (0x34f, 0x34f), (0x61c, 0x61c), (0x115f, 0x1160), (0x17b4, 0x17b5),
   (0x180b, 0x180f), (0x200b, 0x200f), (0x202a, 0x202e), (0x2060, 0x206f), (0x3164, 0x3164),
   (0xfe00, 0xfe0f), (0xfeff, 0xfeff), (0xffa0, 0xffa0), (0xfff0, 0xfff8), (0x1bca0, 0x1bca3),
   (0x1d173, 0x1d17a), (0xe0000, 0xe0fff)]

/-- Whether a character has the property `Default_Ignorable_Code_Point`. -/
def isDefaultIgnorable (c : Char) : Bool := isWithin defaultIgnorableRanges c

end TextCalculator.Text
