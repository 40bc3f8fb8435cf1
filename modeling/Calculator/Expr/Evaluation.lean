import Calculator.Expr.Basic
import Calculator.Number.Shortest

/-!
# Evaluation

Operators work on binary64 values as the IEEE standard and the mathematical library of the platform define them; no
result is an error.  What `Expr.evaluate` refuses is a tree that holds an infinity or NaN as a value: it names the
leftmost one.
-/

namespace Calculator

namespace Function

/-- The value of the function; `log` is to base ten and `ln` the natural logarithm. -/
def apply : Function → Float → Float
  | log => Float.log10
  | ln => Float.log
  | exp => Float.exp
  | sqrt => Float.sqrt
  | abs => Float.abs
  | atan => Float.atan
  | acos => Float.acos
  | asin => Float.asin
  | sinh => Float.sinh
  | cosh => Float.cosh
  | tanh => Float.tanh
  | tan => Float.tan
  | sin => Float.sin
  | cos => Float.cos

end Function

/-- The value of a prefix operator. -/
def UnaryOp.apply : UnaryOp → Float → Float
  | .identity, x => x
  | .negate, x => -x
  | .function f, x => f.apply x

/-- The value of a binary operator. -/
def BinaryOp.apply : BinaryOp → Float → Float → Float
  | .add, x, y => x + y
  | .sub, x, y => x - y
  | .mul, x, y => x * y
  | .div, x, y => x / y
  | .pow, x, y => Float.pow x y
  | .sci, x, y => x * Float.pow 10 y

/-- Why a tree has no value. -/
inductive EvaluationError
  /-- A leaf is an infinity or NaN. -/
  | nonFiniteLiteral (x : Float)
  deriving DecidableEq

/-- The error in words. -/
def EvaluationError.message : EvaluationError → String
  | .nonFiniteLiteral x => "Invalid expression: literal " ++ plainText x ++ " is not a finite number"

namespace Expr

/-- The value of a tree whose leaves are finite, left operands first. -/
def evaluate : Expr → Except EvaluationError Float
  | value x => if x.isFinite then .ok x else .error (.nonFiniteLiteral x)
  | unary op e => do
    let x ← e.evaluate
    return op.apply x
  | binary op l r => do
    let x ← l.evaluate
    let y ← r.evaluate
    return op.apply x y

end Expr

end Calculator
