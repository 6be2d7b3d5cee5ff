import TextCalculator.Session.CommandLine
import TextCalculator.Settings

/-!
# The program

The session on a real machine: files and streams of the operating system, the arguments and the
standard input of the process, and the environment variables that say where the history is.

Everything that decides something is in the modules that are imported; here effects are only carried
out. The log goes nowhere, as it does unless the user asks for it.
-/

namespace TextCalculator.Main

/-- The environment variable that names the file of the history. -/
def historyVariable : String := "TALLY_HISTORY"

/-- The environment variable that names the home directory. -/
def homeVariable : String := "HOME"

/-- What is shown on a terminal before a line is typed. -/
def terminalPrompt : String := ">> "

/-- A cause that the operating system gives by its code. -/
def causeOfCode (code : UInt32) (details : String) : FileError :=
  match code.toNat with
  | 2 => .notFound
  | 13 => .permissionDenied
  | 20 => .notADirectory
  | 21 => .isADirectory
  | 36 => .nameTooLong
  | n => .other n details

/-- Why an access to a file failed. -/
def causeOf : IO.Error → FileError
  | .noFileOrDirectory _ code details | .inappropriateType _ code details
  | .invalidArgument _ code details | .permissionDenied _ code details
  | .resourceExhausted _ code details | .alreadyExists _ code details
  | .otherError code details | .resourceBusy code details | .hardwareFault code details
  | .unsupportedOperation code details => causeOfCode code details
  | e => .other 0 (toString e)

/-- The cause if a path is no text. The operating system would find the file, but it cannot be asked
for it by a text, and another file must not be taken in its place. -/
def pathNotText : FileError := .other 84 "Invalid or incomplete multibyte or wide character"

/-- Carries out an access to the file at a path. -/
def attempt {α : Type} (path : FilePath) (access : String → IO α) : IO (Except FileError α) :=
  match path.text? with
  | none => return .error pathNotText
  | some name => do
    try return .ok (← access name)
    catch e => return .error (causeOf e)

/-- The stream of the process. -/
def streamOf : Stream → IO IO.FS.Stream
  | .output => IO.getStdout
  | .error => IO.getStderr

instance : Machine IO where
  appendFile path bytes := attempt path fun name ↦ do
    let handle ← IO.FS.Handle.mk name .append
    handle.write bytes
    handle.flush
  readFile path := attempt path fun name ↦ IO.FS.readBinFile name
  print stream text := do
    try
      let target ← streamOf stream
      target.putStr text
      target.flush
      return true
    catch _ => return false
  flush stream := do
    try
      (← streamOf stream).flush
      return true
    catch _ => return false
  note _ := return

/-- Reads a byte; `none` at the end of the input. -/
def readByte (input : IO.FS.Stream) : IO (Option UInt8) := do
  return (← input.read 1).toList.head?

/-- Reads a line of the standard input. -/
def readLine : IO (Reading String) := do
  let input ← IO.getStdin
  if ← input.isTty then
    let _ ← Machine.print .output terminalPrompt
  CommandLine.readLine (readByte input)

/-- The bytes of an environment variable. -/
def environment (name : String) : IO (Option (List UInt8)) := do
  return (← IO.getEnv name).map (·.toUTF8.toList)

/-- Runs the program on the arguments of the process. -/
def run (arguments : List String) : IO UInt32 := do
  let named ← environment historyVariable
  let path := Settings.historyPath named (← environment homeVariable)
  CommandLine.start ⟨path⟩ arguments (Session.serve ⟨path⟩ readLine)

end TextCalculator.Main

/-- The program. -/
def main (arguments : List String) : IO UInt32 := TextCalculator.Main.run arguments
