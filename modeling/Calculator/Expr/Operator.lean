/-!
# Functions and operators

* the fourteen functions, in the order in which they are listed, and their names, which are pairwise different;
* the six binary operators, with the symbol they are written with and the level at which they bind;
* the prefix operators: a sign or a function.

Functions and binary operators have a `label` besides, by which trees are listed.
-/

namespace Calculator

/-- The functions of one argument. -/
inductive Function
  | log | ln | exp | sqrt | abs | atan | acos | asin | sinh | cosh | tanh | tan | sin | cos
  deriving DecidableEq, Repr

namespace Function

/-- All functions, in listing order. -/
def all : List Function :=
  [log, ln, exp, sqrt, abs, atan, acos, asin, sinh, cosh, tanh, tan, sin, cos]

/-- The name an expression calls the function by. -/
def name : Function → String
  | log => "log"
  | ln => "ln"
  | exp => "exp"
  | sqrt => "sqrt"
  | abs => "abs"
  | atan => "atan"
  | acos => "acos"
  | asin => "asin"
  | sinh => "sinh"
  | cosh => "cosh"
  | tanh => "tanh"
  | tan => "tan"
  | sin => "sin"
  | cos => "cos"

/-- The capitalised name. -/
def label : Function → String
  | log => "Log"
  | ln => "Ln"
  | exp => "Exp"
  | sqrt => "Sqrt"
  | abs => "Abs"
  | atan => "Atan"
  | acos => "Acos"
  | asin => "Asin"
  | sinh => "Sinh"
  | cosh => "Cosh"
  | tanh => "Tanh"
  | tan => "Tan"
  | sin => "Sin"
  | cos => "Cos"

/-- The function of a given name. -/
def ofName? (name : String) : Option Function :=
  all.find? fun f => f.name == name

theorem mem_all (f : Function) : f ∈ all := by
  cases f <;> decide

theorem name_inj {f g : Function} : f.name = g.name ↔ f = g := by
  cases f <;> cases g <;> decide

theorem ofName?_eq_some_iff {name : String} {f : Function} : ofName? name = some f ↔ f.name = name := by
  constructor
  · intro h
    simpa using List.find?_some h
  · rintro rfl
    cases f <;> decide

end Function

/-- The binary operators; `sci` scales its left operand by a power of ten. -/
inductive BinaryOp
  | add | sub | mul | div | pow | sci
  deriving DecidableEq, Repr

namespace BinaryOp

/-- All binary operators. -/
def all : List BinaryOp :=
  [add, sub, mul, div, pow, sci]

/-- The symbol an expression writes the operator with. -/
def symbol : BinaryOp → String
  | add => "+"
  | sub => "-"
  | mul => "*"
  | div => "/"
  | pow => "^"
  | sci => "e"

/-- The name of the operator in words. -/
def label : BinaryOp → String
  | add => "Add"
  | sub => "Sub"
  | mul => "Mul"
  | div => "Div"
  | pow => "Pow"
  | sci => "Sci"

/-- The operator of a given symbol. -/
def ofSymbol? (symbol : String) : Option BinaryOp :=
  all.find? fun op => op.symbol == symbol

theorem mem_all (op : BinaryOp) : op ∈ all := by
  cases op <;> decide

theorem symbol_inj {a b : BinaryOp} : a.symbol = b.symbol ↔ a = b := by
  cases a <;> cases b <;> decide

theorem ofSymbol?_symbol (op : BinaryOp) : ofSymbol? op.symbol = some op := by
  cases op <;> decide

end BinaryOp

/-- The prefix operators. -/
inductive UnaryOp
  | identity
  | negate
  | function (f : Function)
  deriving DecidableEq, Repr

namespace UnaryOp

/-- The symbol or name an expression writes the operator with. -/
def symbol : UnaryOp → String
  | identity => "+"
  | negate => "-"
  | function f => f.name

/-- The prefix operator of a given symbol or name. -/
def ofSymbol? (symbol : String) : Option UnaryOp :=
  if symbol = "+" then some identity
  else if symbol = "-" then some negate
  else (Function.ofName? symbol).map function

theorem ofSymbol?_symbol (op : UnaryOp) : ofSymbol? op.symbol = some op := by
  cases op with
  | identity => rfl
  | negate => rfl
  | function f => cases f <;> decide

end UnaryOp

end Calculator
