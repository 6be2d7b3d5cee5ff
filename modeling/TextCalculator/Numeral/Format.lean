import TextCalculator.Decimal.Shortest

/-!
# Written numbers

How a number is written: in plain notation with at least one digit on either side of the point, or
in scientific notation with one digit before the point. Both use the shortest decimal that reads
back, so a written number determines the number.

The choices of notation are one value, `NumberFormat.standard`, of a record.
-/

namespace TextCalculator

-- Powers of whole numbers are the built-in ones, also where a more general power is in scope.
attribute [local instance (2000)] instPowNat

/-- The choices of how a number is written. -/
structure NumberFormat where
  /-- Plain notation is used from `10 ^ (-plainDown)` on. -/
  plainDown : Nat
  /-- Plain notation is used below `10 ^ plainUp`. -/
  plainUp : Nat
  /-- What stands between the digits and the exponent. -/
  exponentMark : Char
  /-- How an infinite magnitude is written. -/
  infinity : List Char
  /-- How `nan` is written. -/
  nan : List Char

/-- Plain notation from a thousandth up to ten million, an exponent after `E`, and words for the
values that have no digits. -/
def NumberFormat.standard : NumberFormat where
  plainDown := 3
  plainUp := 7
  exponentMark := 'E'
  infinity := ['I', 'n', 'f', 'i', 'n', 'i', 't', 'y']
  nan := ['N', 'a', 'N']

namespace Numeral

/-! ### Digits -/

/-- The decimal digits of a whole number. -/
abbrev digits (n : Nat) : List Char := Nat.toDigits 10 n

/-- The decimal digits of an integer, after a minus sign if it is negative. -/
def integer : Int → List Char
  | .ofNat n => digits n
  | .negSucc n => '-' :: digits (n + 1)

/-- Digits with zeros in front so that there are at least `count`. -/
def padded (count : Nat) (ds : List Char) : List Char :=
  List.replicate (count - ds.length) '0' ++ ds

/-! ### Notations -/

/-- Plain notation: the decimal point stands where it belongs, with a digit on either side. -/
def plain (d : Decimal) : List Char :=
  match d.exponent with
  | .ofNat zeros => digits d.digits ++ List.replicate zeros '0' ++ ['.', '0']
  | .negSucc n =>
    let ds := padded (n + 2) (digits d.digits)
    ds.take (ds.length - (n + 1)) ++ '.' :: ds.drop (ds.length - (n + 1))

/-- Scientific notation: the point stands after the first digit, and the exponent follows. -/
def scientific (format : NumberFormat) (d : Decimal) : List Char :=
  match digits d.digits with
  | [] => []
  | first :: rest =>
    first :: '.' :: (if rest = [] then ['0'] else rest) ++
      format.exponentMark :: integer (d.exponent + rest.length)

/-- Whether the magnitude of a rank is written in plain notation: zero is, and so is every magnitude
between the bounds of the format. -/
def isPlain (format : NumberFormat) (rank : Nat) : Bool :=
  let units := Binary64.unitsOfRank rank
  units = 0 ∨ Binary64.one ≤ units * 10 ^ format.plainDown ∧
    units < 10 ^ format.plainUp * Binary64.one

/-- The written form of a finite magnitude. -/
def magnitude (format : NumberFormat) (rank : Nat) : List Char :=
  if isPlain format rank then plain (Decimal.shortest rank)
  else scientific format (Decimal.shortest rank)

/-- A written magnitude after its sign. -/
def signed (negative : Bool) (cs : List Char) : List Char :=
  if negative then '-' :: cs else cs

/-- The written form of a number in a format. -/
def writeIn (format : NumberFormat) : Binary64 → List Char
  | .nan => format.nan
  | .infinity negative => signed negative format.infinity
  | .finite negative rank => signed negative (magnitude format rank)

/-- The written form of a number. -/
def write (x : Binary64) : List Char := writeIn .standard x

end Numeral

/-- The text of a number. -/
def Binary64.render (x : Binary64) : String := String.ofList (Numeral.write x)

end TextCalculator
