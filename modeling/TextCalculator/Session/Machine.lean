import TextCalculator.FileSystem
import TextCalculator.Log

/-!
# What a session needs of the machine

A session reads and extends a file, prints to two streams and keeps a log. `Machine` names these
effects, so that one definition of a session runs on a real machine and on a machine that is a
value.

## A machine as a value

`World` is such a machine: a file system, two sinks for the streams, and the log so far. A sink may
be broken; what is printed to it is then lost, and whoever prints to it is told so.
-/

namespace TextCalculator

/-- The two streams that a session prints to. -/
inductive Stream where
  /-- For results. -/
  | output
  /-- For what went wrong. -/
  | error
deriving DecidableEq

/-- The effects of a session. -/
class Machine (m : Type → Type) where
  /-- Adds bytes at the end of a file, which is made if there is none. -/
  appendFile : FilePath → ByteArray → m (Except FileError Unit)
  /-- The content of a file. -/
  readFile : FilePath → m (Except FileError ByteArray)
  /-- Prints to a stream; whether the stream has taken it. -/
  print : Stream → String → m Bool
  /-- Lets a stream show what it has taken; whether it could. -/
  flush : Stream → m Bool
  /-- Adds a line to the log. -/
  note : LogLine → m Unit

/-- Prints a line to a stream. If the stream does not take it, the line is given up. -/
def Machine.printLine {m : Type → Type} [Monad m] [Machine m] (stream : Stream) (line : String) :
    m Unit := do
  let _ ← Machine.print stream (line ++ "\n")
  return

/-- Where printed text goes. -/
structure Sink where
  /-- Whether the sink takes what is printed. -/
  works : Bool
  /-- What it has taken. -/
  text : String
deriving DecidableEq

/-- Prints to a sink. -/
def Sink.print (sink : Sink) (text : String) : Sink :=
  if sink.works then { sink with text := sink.text ++ text } else sink

/-- A machine as a value. -/
structure World where
  /-- The file system. -/
  files : FileSystem
  /-- Where results go. -/
  output : Sink
  /-- Where messages about failures go. -/
  error : Sink
  /-- The log, oldest line first. -/
  log : List LogLine

namespace World

/-- Whether a stream takes what is printed to it. -/
def takes (stream : Stream) (w : World) : Bool :=
  match stream with
  | .output => w.output.works
  | .error => w.error.works

/-- The world after a text is printed. -/
def print (stream : Stream) (text : String) (w : World) : World :=
  match stream with
  | .output => { w with output := w.output.print text }
  | .error => { w with error := w.error.print text }

instance : Machine (StateM World) where
  appendFile path bytes := fun w ↦
    match w.files.append path bytes with
    | .ok files => (.ok (), { w with files })
    | .error e => (.error e, w)
  readFile path := fun w ↦ (w.files.read path, w)
  print stream text := fun w ↦ (w.takes stream, w.print stream text)
  flush stream := fun w ↦ (w.takes stream, w)
  note line := fun w ↦ ((), { w with log := w.log ++ [line] })

end World

end TextCalculator
