import TextCalculator.Text.Quoted
import TextCalculator.Text.Utf8

/-!
# File paths

A path is a sequence of bytes, which need not be text. Slashes divide it into segments; empty
segments occur where slashes are repeated and where a path begins or ends with one.
-/

namespace TextCalculator

/-- A path of a file. -/
structure FilePath where
  /-- The bytes of the path. -/
  bytes : List UInt8
deriving DecidableEq

namespace FilePath

/-- The byte between segments. -/
abbrev slash : UInt8 := 0x2f

/-- The bytes between slashes. -/
def splitSlashes : List UInt8 → List (List UInt8)
  | [] => [[]]
  | b :: bs =>
    if b = slash then [] :: splitSlashes bs
    else match splitSlashes bs with
      | [] => [[b]]
      | segment :: rest => (b :: segment) :: rest

/-- Segments with a slash between each two. -/
def joinSlashes (segments : List (List UInt8)) : List UInt8 := [slash].intercalate segments

/-- The segments of a path. -/
def segments (p : FilePath) : List (List UInt8) := splitSlashes p.bytes

/-- The segment that stands for the directory it is looked up in. -/
abbrev here : List UInt8 := [0x2e]

/-- The segment that stands for the directory above. -/
abbrev above : List UInt8 := [0x2e, 0x2e]

/-- Whether a segment leads nowhere: it is empty or `here`. -/
def isIdle (segment : List UInt8) : Bool := segment = [] || segment = here

/-- The path of a text. -/
def ofString (s : String) : FilePath := ⟨s.toUTF8.toList⟩

/-- The path as text, if it is text. -/
def text? (p : FilePath) : Option String := String.fromUTF8? ⟨p.bytes.toArray⟩

/-! ### Showing a path -/

/-- The path as text, with U+FFFD for what is not text. -/
def display (p : FilePath) : String := String.ofList (Text.lossy p.bytes)

/-- A byte as two hexadecimal digits. -/
def hexByte (b : UInt8) : List Char :=
  (Nat.toDigits 16 (256 + b.toNat)).tail.map Char.toUpper

/-- The path between double quotes, as a text is quoted and with an escape for each byte that is not
text. -/
def quoted (p : FilePath) : String :=
  let item : Text.Utf8Item → List Char
    | .char c => Text.escape c
    | .invalid bytes => bytes.flatMap fun b ↦ '\\' :: 'x' :: hexByte b
  String.ofList ('"' :: (Text.utf8Items p.bytes).flatMap item ++ ['"'])

end FilePath

end TextCalculator
