import Calculator.Expr.Evaluation
import Calculator.Syntax.Cursor
import Calculator.Token.Lexeme

/-!
# Calculation

From a text to its value: tokens, tree, value.  The first stage that fails gives the error.
-/

namespace Calculator

/-- Why a text has no value. -/
inductive CalculationError
  | lexical (error : LexicalError)
  | syntactic (error : SyntaxError)
  | evaluation (error : EvaluationError)
  deriving DecidableEq

/-- The error in words. -/
def CalculationError.message : CalculationError → String
  | lexical error => error.message
  | syntactic error => error.message
  | evaluation error => error.message

/-- The value of a text. -/
def calculate (source : String) : Except CalculationError Float := do
  let tokens ← (tokenize source).mapError .lexical
  let tree ← (parse tokens).mapError .syntactic
  tree.evaluate.mapError .evaluation

end Calculator
