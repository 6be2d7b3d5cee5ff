import TextCalculator.Numeral.Format
import TextCalculator.Session.Machine
import TextCalculator.Text.Blank
import TextCalculator.Text.Lines

/-!
# The history

A file with one line for each recorded evaluation: the expression as it was given, an equals sign
between spaces, and the value. Recording adds a line at the end, and nothing is ever changed or
taken away.
-/

namespace TextCalculator

/-- A history, given by the path of its file. -/
structure History where
  /-- The path of the file. -/
  path : FilePath
deriving DecidableEq

/-- Why a history cannot be used. -/
structure HistoryError where
  /-- The path of the file. -/
  path : FilePath
  /-- What is wrong with it. -/
  cause : FileError
deriving DecidableEq

namespace HistoryError

/-- The message that is shown to the user. -/
def message (e : HistoryError) : String := e.path.display ++ ": " ++ e.cause.message

/-- The description that goes to the log. -/
def describe (e : HistoryError) : String :=
  "Io \x7b path: " ++ e.path.quoted ++ ", source: " ++ e.cause.describe ++ " \x7d"

end HistoryError

namespace History

/-- The line that records an evaluation. -/
def entry (expression : String) (value : Binary64) : String :=
  expression ++ " = " ++ value.render ++ "\n"

/-- The lines of a text. -/
def linesOf (text : String) : List String :=
  (Text.lines '\n' '\r' text.toList).map String.ofList

/-- What the log says of a recorded evaluation. -/
def appended (h : History) (entry : String) : LogLine :=
  ⟨.debug, "appended to " ++ h.path.display ++ ": " ++ String.ofList (Text.trimEnd entry.toList)⟩

variable {m : Type → Type} [Monad m] [Machine m]

/-- Records an evaluation. -/
def append (h : History) (expression : String) (value : Binary64) :
    m (Except HistoryError Unit) := do
  let line := entry expression value
  match ← Machine.appendFile h.path line.toUTF8 with
  | .ok () =>
    Machine.note (h.appended line)
    return .ok ()
  | .error cause => return .error ⟨h.path, cause⟩

/-- The recorded lines, oldest first; `none` if there is no file yet. -/
def readAll (h : History) : m (Except HistoryError (Option (List String))) := do
  match ← Machine.readFile h.path with
  | .ok content =>
    match String.fromUTF8? content with
    | some text => return .ok (some (linesOf text))
    | none => return .error ⟨h.path, .notText⟩
  | .error .notFound => return .ok none
  | .error cause => return .error ⟨h.path, cause⟩

end History

end TextCalculator
