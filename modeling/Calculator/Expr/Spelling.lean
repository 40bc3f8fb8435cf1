import Calculator.Expr.Operator
import Calculator.Text.LowerCase

/-!
# Spellings of function names

Function names are recognised in either case, so far as a text's lower case is the name.
-/

namespace Calculator

/-- A text, in lower case, that names no function. -/
structure UnknownFunction where
  name : String
  deriving DecidableEq, Repr

/-- The function whose name a text spells. -/
def Function.ofSpelling (text : String) : Except UnknownFunction Function :=
  let name := lowerCase text
  match Function.ofName? name with
  | some f => .ok f
  | none => .error ⟨name⟩

end Calculator
