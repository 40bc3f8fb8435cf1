import Calculator.Expr.Operator

/-!
# Tokens

A token is a number, kept as it is written, an operator symbol, a parenthesis or a function.  An operator symbol can
stand between two operands (`Token.binaryOp?`); a plus or minus and a function can stand before one
(`Token.unaryOp?`).
-/

namespace Calculator

/-- The smallest meaningful parts of an expression. -/
inductive Token
  | number (text : String)
  | operator (op : BinaryOp)
  | leftParen
  | rightParen
  | function (f : Function)
  deriving DecidableEq, Repr

/-- The kinds of tokens. -/
inductive TokenKind
  | number | operator | paren | function
  deriving DecidableEq, Repr

/-- The name of the kind. -/
def TokenKind.label : TokenKind → String
  | number => "Number"
  | operator => "Operator"
  | paren => "Paren"
  | function => "Function"

namespace Token

/-- The kind of the token. -/
def kind : Token → TokenKind
  | number _ => .number
  | operator _ => .operator
  | leftParen => .paren
  | rightParen => .paren
  | function _ => .function

/-- How the token is written. -/
def text : Token → String
  | number text => text
  | operator op => op.symbol
  | leftParen => "("
  | rightParen => ")"
  | function f => f.name

/-- The token as a binary operator. -/
def binaryOp? : Token → Option BinaryOp
  | operator op => some op
  | _ => none

/-- The token as a prefix operator. -/
def unaryOp? : Token → Option UnaryOp
  | operator .add => some .identity
  | operator .sub => some .negate
  | function f => some (.function f)
  | _ => none

/-- Kind and text of the token. -/
def listing (t : Token) : String :=
  t.kind.label ++ "(" ++ t.text ++ ")"

end Token

/-- Kinds and texts of tokens on one line. -/
def listTokens (tokens : List Token) : String :=
  " ".intercalate (tokens.map Token.listing)

end Calculator
