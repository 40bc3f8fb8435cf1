import Calculator.Token.Basic

/-!
# Syntax errors

Why a token list is no expression.  Positions are indices into the token list.
-/

namespace Calculator

/-- Why a token list is no expression. -/
inductive SyntaxError
  /-- An operand has to begin at `position`, and this token begins none. -/
  | unexpectedToken (token : Token) (position : Nat)
  /-- A group is open, and what stands at `position` neither continues nor closes it. -/
  | missingClosingParen (position : Nat)
  /-- The list ends where an operand has to begin, after this token. -/
  | incompleteExpression (last : Token) (position : Nat)
  /-- The expression ends before this token. -/
  | trailingTokens (token : Token) (position : Nat)
  /-- There are no tokens. -/
  | emptyExpression
  /-- The text of the number at `position` is no literal. -/
  | invalidNumber (text : String) (position : Nat)
  /-- The number at `position` rounds to no finite value. -/
  | literalTooLarge (text : String) (position : Nat)
  /-- The token at `position` opens or completes more than a limit admits. -/
  | nestingTooDeep (position : Nat)
  deriving DecidableEq, Repr

/-- The error in words. -/
def SyntaxError.message : SyntaxError → String
  | unexpectedToken t p =>
    "Invalid token: " ++ t.text ++ " at position " ++ toString p ++ ". Expected a number or parenthesis"
  | missingClosingParen p => "Expected closing parenthesis at position " ++ toString p
  | incompleteExpression t p =>
    "Invalid expression: expected an expression on the right side of " ++ t.text ++ " at position " ++ toString p
  | trailingTokens t p => "Unexpected token " ++ t.text ++ " at position " ++ toString p
  | emptyExpression => "Empty expression"
  | invalidNumber text p => "Invalid number: " ++ text ++ " at position " ++ toString p
  | literalTooLarge text p => "Literal " ++ text ++ " at position " ++ toString p ++ " is too large"
  | nestingTooDeep p => "Expression nested too deeply at position " ++ toString p

end Calculator
