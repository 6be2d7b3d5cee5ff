import TextCalculator.Session.Basic

/-!
# The command line

Arguments, if there are any, form one line, and that line is all there is. Otherwise the lines of
the standard input are taken, until one of them is not text.

The standard input is one that is no terminal. On a terminal a line editor stands between the keys
and the line, and it would also take a backspace in the input of a line for an order to delete; of
neither is anything said here.
-/

namespace TextCalculator.CommandLine

/-! ### Standard input -/

/-- What the bytes of a line yield, on a standard input that is no terminal and has no backspaces for
a line editor to carry out: the text that they are, as it is. -/
def reading (bytes : List UInt8) : Reading String :=
  match String.fromUTF8? ⟨bytes.toArray⟩ with
  | some text => .line text
  | none => .failure FileError.notText.message

/-- What a standard input that is no terminal and has no backspaces yields, line by line. -/
def readings (input : List UInt8) : List (Reading String) :=
  (Text.lines 0x0a 0x0d input).map reading

/-- What an attempt to read yields that has read this stretch. An empty one that no line feed has
ended is the end of the input. -/
def readingOf : List UInt8 × Bool → Reading String
  | ([], false) => .endOfInput
  | stretch => reading (Text.lineOf 0x0d stretch)

section Reader

variable {m : Type → Type} [Monad m]

/-- Reads bytes up to a line feed, behind those of the line so far; whether there was one. -/
def readStretch (readByte : m (Option UInt8)) (line : Array UInt8) : m (List UInt8 × Bool) :=
  repeatM (fun line ↦ do
    match ← readByte with
    | none => return .inr (line.toList, false)
    | some byte =>
      if byte = 0x0a then return .inr (line.toList, true) else return .inl (line.push byte)) line

/-- Attempts to read a line. -/
def readLine (readByte : m (Option UInt8)) : m (Reading String) :=
  readingOf <$> readStretch readByte #[]

end Reader

/-! ### Outcomes -/

/-- The report of what kept a line from being read: what the program was doing, and below it the
chain of causes, each with its number. The failure to read is caused by a failure of the stream, and
both carry the message of the latter. -/
def report (e : String) : String :=
  let causes := [e, e].zipIdx.map fun (cause, i) ↦ "    " ++ toString i ++ ": " ++ cause
  "\n".intercalate ("Error: reading input" :: "" :: "Caused by:" :: causes)

variable {m : Type → Type} [Monad m] [Machine m]

/-- The exit code of an outcome, after its report. -/
def finish : Except String Unit → m UInt32
  | .ok () => return 0
  | .error e => do
    Machine.printLine .error (report e)
    return 1

/-! ### The program -/

/-- The arguments as one line; `none` if there are none. -/
def line? (arguments : List String) : Option String :=
  if arguments = [] then none else some (" ".intercalate arguments)

/-- Runs the program on its arguments, or else the session on its standard input; the exit code. -/
def dispatch (history : History) (arguments : List String) (session : m (Except String Unit)) :
    m UInt32 := do
  match line? arguments with
  | some line =>
    let _ ← Session.handle history line
    return 0
  | none => finish (← session)

/-- What the log says first: where the history is. -/
def located (history : History) : LogLine := ⟨.info, "history log: " ++ history.path.display⟩

/-- Says where the history is and runs the program; the exit code. -/
def start (history : History) (arguments : List String) (session : m (Except String Unit)) :
    m UInt32 := do
  Machine.note (located history)
  dispatch history arguments session

/-- Runs the program on its arguments and on the bytes of its standard input; the exit code. -/
def run (history : History) (arguments : List String) (input : List UInt8) : m UInt32 :=
  dispatch history arguments (Prod.fst <$> Session.run history (readings input))

end TextCalculator.CommandLine
