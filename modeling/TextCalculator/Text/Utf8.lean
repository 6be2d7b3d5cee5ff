/-!
# Bytes as UTF-8

Bytes need not be text. `utf8Items` reads as much of them as it can: characters where the bytes are
well formed, and elsewhere the longest stretch that begins a character without completing it, or
else a single byte. Showing U+FFFD for every such stretch gives the usual lossy reading, `lossy`.
-/

namespace TextCalculator.Text

/-- What a stretch of bytes reads as. -/
inductive Utf8Item where
  /-- A well-formed character. -/
  | char (c : Char)
  /-- Bytes that are part of no well-formed character. -/
  | invalid (bytes : List UInt8)
deriving DecidableEq

/-- What the first byte of a character promises: the number of further bytes, the range of the first
of them, and the bits that the first byte itself contributes. The ranges leave out encodings that
are longer than needed, surrogates, and numbers that are no code points. -/
def Utf8Item.lead? (b : UInt8) : Option (Nat × (UInt8 × UInt8) × Nat) :=
  if b < 0x80 then some (0, (0x80, 0xbf), b.toNat)
  else if b < 0xc2 then none
  else if b < 0xe0 then some (1, (0x80, 0xbf), b.toNat - 0xc0)
  else if b < 0xf0 then
    some (2, if b = 0xe0 then (0xa0, 0xbf) else if b = 0xed then (0x80, 0x9f) else (0x80, 0xbf),
      b.toNat - 0xe0)
  else if b < 0xf5 then
    some (3, if b = 0xf0 then (0x90, 0xbf) else if b = 0xf4 then (0x80, 0x8f) else (0x80, 0xbf),
      b.toNat - 0xf0)
  else none

/-- Reads `count` further bytes of a character, the first of them in the given range. The answer is
the code point if they are all there, the bytes that were read and belong to the character, and the
rest. -/
def Utf8Item.complete : (count : Nat) → (range : UInt8 × UInt8) → (code : Nat) → List UInt8 →
    Option Nat × List UInt8 × List UInt8
  | 0, _, code, bytes => (some code, [], bytes)
  | _ + 1, _, _, [] => (none, [], [])
  | count + 1, (low, high), code, b :: bytes =>
    if low ≤ b ∧ b ≤ high then
      let (read, used, rest) :=
        Utf8Item.complete count (0x80, 0xbf) (code * 64 + (b.toNat - 0x80)) bytes
      (read, b :: used, rest)
    else (none, [], b :: bytes)

/-- Completing an item takes bytes away from what is left and adds none, so reading items ends. -/
theorem Utf8Item.length_complete (count : Nat) (range : UInt8 × UInt8) (code : Nat)
    (bytes : List UInt8) :
    (Utf8Item.complete count range code bytes).2.2.length ≤ bytes.length := by
  induction bytes generalizing count range code with
  | nil => cases count <;> simp [Utf8Item.complete]
  | cons b bytes ih =>
    cases count with
    | zero => simp [Utf8Item.complete]
    | succ count =>
      simp only [Utf8Item.complete]
      split
      · exact Nat.le_succ_of_le (ih ..)
      · simp

/-- Reads bytes as far as they are characters. -/
def utf8Items : List UInt8 → List Utf8Item
  | [] => []
  | b :: bytes =>
    match Utf8Item.lead? b with
    | none => .invalid [b] :: utf8Items bytes
    | some (count, range, code) =>
      let completed := Utf8Item.complete count range code bytes
      match completed.1 with
      | some code => .char (Char.ofNat code) :: utf8Items completed.2.2
      | none => .invalid (b :: completed.2.1) :: utf8Items completed.2.2
termination_by bytes => bytes.length
decreasing_by
  · simp
  all_goals exact Nat.lt_succ_of_le (Utf8Item.length_complete ..)

/-- Bytes as text, with U+FFFD for what is not text. -/
def lossy (bytes : List UInt8) : List Char :=
  (utf8Items bytes).map fun
    | .char c => c
    | .invalid _ => '\ufffd'

end TextCalculator.Text
