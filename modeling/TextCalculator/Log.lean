/-!
# Log lines

What a run of the program notes about its own work: a message with a level of importance. The levels
are ordered, so that a reader may ask for the lines from a level upward.
-/

namespace TextCalculator

/-- How important a log line is. -/
inductive LogLevel where
  /-- A detail of the work. -/
  | trace
  /-- A step of the work. -/
  | debug
  /-- Something that is good to know. -/
  | info
  /-- Something went wrong, and the work went on. -/
  | warn
deriving DecidableEq

namespace LogLevel

/-- The position of a level in their order. -/
def rank : LogLevel → Nat
  | trace => 0
  | debug => 1
  | info => 2
  | warn => 3

/-- The name of a level. -/
def name : LogLevel → String
  | trace => "TRACE"
  | debug => "DEBUG"
  | info => "INFO"
  | warn => "WARN"

end LogLevel

/-- A message with its level. -/
structure LogLine where
  /-- How important the message is. -/
  level : LogLevel
  /-- The message. -/
  message : String
deriving DecidableEq

namespace LogLine

/-- The line as it is shown. -/
def text (line : LogLine) : String := line.level.name ++ " " ++ line.message

/-- Whether a line is at least as important as a level. -/
def reaches (level : LogLevel) (line : LogLine) : Bool := level.rank ≤ line.level.rank

end LogLine

end TextCalculator
