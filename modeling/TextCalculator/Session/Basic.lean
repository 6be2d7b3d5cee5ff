import TextCalculator.Expression.EvaluationLog
import TextCalculator.Session.Command
import TextCalculator.Session.History

/-!
# Sessions

A session takes lines one after the other. It evaluates an expression, prints the result and records
it; it shows the history; and it ends when it is told to, when the lines end, or when a line cannot
be read. Nothing that goes wrong with one line keeps it from taking the next, and a stream that does
not take what is printed to it is none of its concerns.

On a machine a session is a loop (`serve`), and a line is read when its turn comes. `run` is the
session without the machine's part: it is given what each attempt to read a line yields, as a list.
A line that comes after the end is never looked at.
-/

namespace TextCalculator

/-- Whether a session goes on after a line. -/
inductive Flow where
  /-- The next line is due. -/
  | continue
  /-- The session is over. -/
  | exit
deriving DecidableEq

/-- What an attempt to read a line yields. -/
inductive Reading (ε : Type) where
  /-- A line. -/
  | line (text : String)
  /-- No more lines. -/
  | endOfInput
  /-- The line cannot be read. -/
  | failure (error : ε)
deriving DecidableEq

namespace Session

/-- What is printed before each line is read. -/
def banner : String :=
  "Введите выражение для вычисления или 'history' для вывода истории, 'exit' для выхода:"

/-- What is printed instead of a history that does not exist. -/
def emptyHistory : String := "История пуста."

/-- What the log says when an evaluation could not be recorded. -/
def notRecorded (e : HistoryError) : LogLine := ⟨.warn, "history not updated: " ++ e.describe⟩

variable {m : Type → Type} [Monad m] [Machine m] {ε : Type}

/-- Shows the banner, before a line is awaited. -/
def showBanner : m Unit := do
  Machine.printLine .output banner
  let _ ← Machine.flush .output
  return

/-- Shows the history. -/
def showHistory (history : History) : m Unit := do
  match ← history.readAll with
  | .ok (some lines) => lines.forM (Machine.printLine .output)
  | .ok none => Machine.printLine .output emptyHistory
  | .error e => Machine.printLine .error ("Ошибка чтения истории: " ++ e.message)

/-- Evaluates an expression, and prints and records the result. -/
def showValue (history : History) (expression : String) : m Unit := do
  let evaluation := Evaluation.ofExpression expression
  evaluation.log.forM Machine.note
  match evaluation.result with
  | .error e => Machine.printLine .error ("Ошибка вычисления: " ++ e.message)
  | .ok value =>
    Machine.printLine .output ("Результат: " ++ value.render)
    match ← history.append expression value with
    | .ok () => return
    | .error e =>
      Machine.note (notRecorded e)
      Machine.printLine .error ("Ошибка записи истории: " ++ e.message)

/-- Takes one line. -/
def handle (history : History) (line : String) : m Flow := do
  match Command.ofLine line with
  | .exit => return .exit
  | .history =>
    showHistory history
    return .continue
  | .evaluate expression =>
    showValue history expression
    return .continue

/-- One turn: shows the banner, attempts to read a line, and takes what that yields. The answer is
the outcome of the session, if it is over. -/
def turn (history : History) (read : m (Reading ε)) : m (Option (Except ε Unit)) := do
  showBanner
  match ← read with
  | .endOfInput => return some (.ok ())
  | .failure e => return some (.error e)
  | .line text =>
    match ← handle history text with
    | .exit => return some (.ok ())
    | .continue => return none

instance nonempty_outcome : Nonempty (Except ε Unit) := ⟨.ok ()⟩

/-- Takes turns until the session is over. -/
def serve (history : History) (read : m (Reading ε)) : m (Except ε Unit) :=
  repeatM (fun _ ↦ do
    match ← turn history read with
    | some outcome => return .inr outcome
    | none => return .inl ()) ()

/-- Runs a session on what the attempts to read a line yield, and counts those that were made. After
the last of them the input is at its end. -/
def run (history : History) : List (Reading ε) → m (Except ε Unit × Nat)
  | [] => do
    showBanner
    return (.ok (), 0)
  | reading :: rest => do
    match ← turn history (pure reading) with
    | some outcome => return (outcome, 1)
    | none =>
      let (outcome, count) ← run history rest
      return (outcome, count + 1)

end Session

end TextCalculator
