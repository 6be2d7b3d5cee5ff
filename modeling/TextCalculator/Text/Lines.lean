/-!
# Lines

A text falls into lines at each line feed. A carriage return right before the line feed belongs to
the line's end and is dropped; any other one stays. A last line without a line feed is a line if it
is not empty, and it is kept whole.

The items may be characters or bytes, since both are split by this rule.
-/

namespace TextCalculator.Text

variable {α : Type} [DecidableEq α]

/-- The stretches between line feeds, each with whether a line feed ended it. -/
def stretches (feed : α) : List α → List (List α × Bool)
  | [] => []
  | a :: as =>
    if a = feed then ([], true) :: stretches feed as
    else match stretches feed as with
      | [] => [([a], false)]
      | (line, ended) :: rest => (a :: line, ended) :: rest

/-- A line without one carriage return at its end. -/
def dropReturn (carriageReturn : α) (line : List α) : List α :=
  if line.getLast? = some carriageReturn then line.dropLast else line

/-- The line that a stretch is: a carriage return at its end goes with the line feed that follows
it. -/
def lineOf (carriageReturn : α) : List α × Bool → List α
  | (line, true) => dropReturn carriageReturn line
  | (line, false) => line

/-- The lines of a text. -/
def lines (feed carriageReturn : α) (as : List α) : List (List α) :=
  (stretches feed as).map (lineOf carriageReturn)

end TextCalculator.Text
