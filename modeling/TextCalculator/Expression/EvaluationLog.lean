import TextCalculator.Expression.Evaluation
import TextCalculator.Log

/-!
# The log of an evaluation

What an evaluation notes about its work: in each round the operators that were looked for in vain,
and then the round itself. The log is read off the evaluation and adds nothing to it.
-/

namespace TextCalculator.Evaluation

/-- The line for an operator that was looked for in vain. -/
def miss (text : List Char) (op : Operator) : LogLine :=
  ⟨.trace, "no match for '" ++ String.ofList op.symbol ++ "' in " ++ String.ofList text⟩

/-- The line for a completed round. -/
def reduced (r : Round) : LogLine :=
  ⟨.debug, "reduced '" ++ String.ofList r.redex.matched ++ "' with " ++
    String.ofList r.redex.operator.symbol ++ ": " ++ String.ofList r.before ++ " -> " ++
    String.ofList r.after⟩

/-- The misses on the way to a redex. -/
def misses (redex : Redex) : List LogLine := redex.operator.earlier.map (miss redex.text)

/-- The lines of a completed round. -/
def roundLog (r : Round) : List LogLine := misses r.redex ++ [reduced r]

/-- The lines of an ending. A redex without a value is reached like any other, but nothing is said
of it. -/
def endingLog : Ending → List LogLine
  | .absolute _ => []
  | .normal text => Operator.scanOrder.map (miss text)
  | .failed redex _ => misses redex

/-- The log of an evaluation. -/
def log (e : Evaluation) : List LogLine := e.rounds.flatMap roundLog ++ endingLog e.ending

end TextCalculator.Evaluation
