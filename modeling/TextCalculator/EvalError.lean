import TextCalculator.Text.Quoted

/-!
# Why an expression has no value

An evaluation fails for one of two reasons, each with its message.
-/

namespace TextCalculator

/-- Why an expression has no value. -/
inductive EvalError where
  /-- A number was to be divided by zero. -/
  | divisionByZero
  /-- The text that was left is not a number. -/
  | malformed (text : String)
deriving DecidableEq

/-- The message that is shown to the user. -/
def EvalError.message : EvalError → String
  | divisionByZero => "Деление на ноль"
  | malformed text => "Некорректное выражение: " ++ Text.quote text

end TextCalculator
