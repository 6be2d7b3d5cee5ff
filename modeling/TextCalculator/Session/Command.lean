import TextCalculator.Text.Blank

/-!
# Commands

A line is a command if it consists of the word of a command, in any mixture of cases and with white
space around it; any other line is an expression and is kept as it is.
-/

namespace TextCalculator

/-- What a line asks for. -/
inductive Command where
  /-- To end the session. -/
  | exit
  /-- To show the history. -/
  | history
  /-- To evaluate an expression. -/
  | evaluate (expression : String)
deriving DecidableEq

namespace Command

/-- The word that ends the session. -/
abbrev exitWord : List Char := ['e', 'x', 'i', 't']

/-- The word that shows the history. -/
abbrev historyWord : List Char := ['h', 'i', 's', 't', 'o', 'r', 'y']

/-- What a line asks for. The cases of ASCII letters are not told apart. -/
def ofLine (line : String) : Command :=
  let word := (Text.trim line.toList).map Char.toLower
  if word = exitWord then exit
  else if word = historyWord then history
  else evaluate line

end Command

end TextCalculator
