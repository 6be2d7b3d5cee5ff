import TextCalculator.Text.DefaultIgnorable
import TextCalculator.Text.GraphemeExtend
import TextCalculator.Text.Printable

/-!
# Quoted text

A text between double quotes on one visible line. A character that could not be seen, or that would
end the quotation, is written as an escape: a backslash and a letter for the common ones, and the
code point in braces for the others. An apostrophe ends no quotation and stays as it is.
-/

namespace TextCalculator.Text

/-- Whether a character could be overlooked: it is not printable, a display may leave it out, or it
attaches to the character before it. -/
def isInvisible (c : Char) : Bool :=
  !isPrintable c || isDefaultIgnorable c || (isGraphemeExtend c && !isHalfwidthSoundMark c)

/-- A character by its code point. -/
def codePointEscape (c : Char) : List Char :=
  '\\' :: 'u' :: '\x7b' :: Nat.toDigits 16 c.toNat ++ ['\x7d']

/-- A character as it stands in a quoted text. -/
def escape (c : Char) : List Char :=
  if c = '\x00' then ['\\', '0']
  else if c = '\t' then ['\\', 't']
  else if c = '\r' then ['\\', 'r']
  else if c = '\n' then ['\\', 'n']
  else if c = '\\' ∨ c = '"' then ['\\', c]
  else if isInvisible c then codePointEscape c
  else [c]

/-- A text between double quotes, with an escape for each character that needs one. -/
def quote (text : String) : String := String.ofList ('"' :: text.toList.flatMap escape ++ ['"'])

end TextCalculator.Text
