import TextCalculator.Expression.Round
import TextCalculator.Text.Blank

/-!
# Evaluation by rewriting

An expression is evaluated by rewriting its text. Each round takes the redex that is due, computes
it, and puts the written result in its place; the scan for operators then starts over. When no redex
is left the text is read as a number.

An evaluation is kept as data, `Evaluation`: its completed rounds and how it ended. The result and
the texts on the way are read off it.

## Absolute values

A text that consists of an integer between two bars is its absolute value. It is looked for before
every round.

## Why it ends

A round leaves fewer seams than there were (`Round.seams_after_lt`).
-/

namespace TextCalculator

/-! ### Absolute values -/

/-- The integer between the bars, if a text is an integer between two bars. -/
def absoluteForm? : List Char → Option (List Char)
  | '|' :: cs =>
    let inner := cs.dropLast
    let digits := if inner.head? = some '-' then inner.tail else inner
    if cs.getLast? = some '|' ∧ digits ≠ [] ∧ digits.all Char.isDigit then some inner else none
  | _ => none

/-! ### Evaluations -/

/-- How an evaluation ended. -/
inductive Ending where
  /-- The text was this integer between two bars. -/
  | absolute (inner : List Char)
  /-- No redex was left in this text. -/
  | normal (text : List Char)
  /-- This redex was due and has no value. -/
  | failed (redex : Redex) (error : EvalError)
deriving DecidableEq

/-- The result that an ending gives. -/
def Ending.result : Ending → Except EvalError Binary64
  | absolute inner => (Numeral.read inner).map Binary64.abs
  | normal text => Numeral.read text
  | failed _ error => .error error

/-- The course of an evaluation. -/
structure Evaluation where
  /-- The completed rounds, in order. -/
  rounds : List Round
  /-- How it ended. -/
  ending : Ending
deriving DecidableEq

namespace Evaluation

/-- The evaluation with one more round before it. -/
def cons (r : Round) (e : Evaluation) : Evaluation := { e with rounds := r :: e.rounds }

/-- Evaluates a text without blanks. -/
def ofText (cs : List Char) : Evaluation :=
  match absoluteForm? cs with
  | some inner => ⟨[], .absolute inner⟩
  | none =>
    match _due : Redex.first? cs with
    | none => ⟨[], .normal cs⟩
    | some redex =>
      match redex.value with
      | .error error => ⟨[], .failed redex error⟩
      | .ok value =>
        let round : Round := ⟨redex, value⟩
        (ofText round.after).cons round
termination_by seams cs
decreasing_by exact Round.seams_after_lt ‹_›

/-- Evaluates an expression. -/
def ofExpression (expression : String) : Evaluation :=
  ofText (Text.dropBlanks expression.toList)

/-- The result of an evaluation. -/
def result (e : Evaluation) : Except EvalError Binary64 := e.ending.result

end Evaluation

/-- The value of an expression. -/
def evaluate (expression : String) : Except EvalError Binary64 :=
  (Evaluation.ofExpression expression).result

end TextCalculator
