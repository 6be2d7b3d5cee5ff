import TextCalculator.EvalError
import TextCalculator.Numeral.Format

/-!
# Number literals

What is read as a number: an optional sign, and then a word for an infinite magnitude or for `nan`,
or a decimal with an optional suffix letter.

A decimal has digits on at least one side of an optional point, and an optional exponent with an
optional sign and at least one digit. Its value is rounded once, however many digits it has.
-/

namespace TextCalculator.Numeral

/-! ### Decimals -/

/-- The whole number that digits stand for. -/
abbrev value (ds : List Char) : Nat := Nat.ofDigitChars 10 ds 0

/-- Reads digits, at least one and nothing else, as a whole number. -/
def readDigits? (cs : List Char) : Option Nat :=
  if cs ≠ [] ∧ cs.all Char.isDigit then some (value cs) else none

/-- Reads digits after an optional sign as an integer. -/
def readInteger? : List Char → Option Int
  | '-' :: cs => (readDigits? cs).map fun n ↦ -(n : Int)
  | '+' :: cs => (readDigits? cs).map fun n ↦ (n : Int)
  | cs => (readDigits? cs).map fun n ↦ (n : Int)

/-- Reads what follows the digits of a decimal: nothing, or an exponent mark and an integer. -/
def readExponent? : List Char → Option Int
  | [] => some 0
  | c :: cs => if c = 'e' ∨ c = 'E' then readInteger? cs else none

/-- The digits at the front of a text, and the rest. -/
def digitRun (cs : List Char) : List Char × List Char :=
  (cs.takeWhile Char.isDigit, cs.dropWhile Char.isDigit)

/-- The digits after a point at the front of a text, and the rest; no digits if there is no
point. -/
def fractionRun : List Char → List Char × List Char
  | '.' :: cs => digitRun cs
  | cs => ([], cs)

/-- Reads a decimal without a sign. -/
def readDecimal? (cs : List Char) : Option Decimal :=
  let (whole, afterWhole) := digitRun cs
  let (fraction, afterFraction) := fractionRun afterWhole
  if whole = [] ∧ fraction = [] then none
  else (readExponent? afterFraction).map fun exponent ↦
    ⟨value (whole ++ fraction), exponent - fraction.length⟩

/-! ### Literals -/

/-- The letters that may end a decimal without meaning anything. -/
def isSuffix (c : Char) : Bool := c = 'f' || c = 'F' || c = 'd' || c = 'D'

/-- A text without one suffix letter at its end. -/
def dropSuffix (cs : List Char) : List Char :=
  if cs.getLast?.any isSuffix then cs.dropLast else cs

/-- The sign at the front of a text and the rest; whether the sign is a minus. -/
def splitSign : List Char → Bool × List Char
  | '-' :: cs => (true, cs)
  | '+' :: cs => (false, cs)
  | cs => (false, cs)

/-- Reads a magnitude and gives it a sign. -/
def readMagnitude? (negative : Bool) (cs : List Char) : Option Binary64 :=
  if cs = NumberFormat.standard.infinity then some (.infinity negative)
  else if cs = NumberFormat.standard.nan then some .nan
  else (readDecimal? (dropSuffix cs)).map (·.toBinary64 negative)

/-- Reads a number literal. -/
def read? (cs : List Char) : Option Binary64 :=
  let (negative, rest) := splitSign cs
  readMagnitude? negative rest

/-- Reads a text as a number literal, or reports it. -/
def read (cs : List Char) : Except EvalError Binary64 :=
  match read? cs with
  | some x => .ok x
  | none => .error (.malformed (String.ofList cs))

end TextCalculator.Numeral
