import Calculator.Number.Decimal

/-!
# Numeric literals

A literal is one or more decimal digits, then possibly a point and any number of further digits.  `readLiteral` takes
its exact value and rounds it once, to the nearest magnitude.
-/

namespace Calculator

/-- Why a text is no literal. -/
inductive LiteralFault
  /-- It is not of the form digits, point, digits. -/
  | malformed
  /-- It rounds to no finite value. -/
  | tooLarge
  deriving DecidableEq, Repr

/-- The part of a text before its first point, and the part after it. -/
def splitAtPoint (text : List Char) : List Char × List Char :=
  (text.takeWhile (· ≠ '.'), (text.dropWhile (· ≠ '.')).drop 1)

/-- Whether a text has the form of a literal. -/
def isLiteral (text : List Char) : Bool :=
  let (whole, fraction) := splitAtPoint text
  !whole.isEmpty && whole.all Char.isDigit && fraction.all Char.isDigit

/-- The exact value of a text that has the form of a literal. -/
def literalValue (text : List Char) : Decimal :=
  let (whole, fraction) := splitAtPoint text
  ⟨Nat.ofDigitChars 10 (whole ++ fraction) 0, -fraction.length⟩

/-- The magnitude that a text denotes. -/
def readLiteral (text : List Char) : Except LiteralFault Magnitude :=
  if isLiteral text then
    match (literalValue text).nearest? with
    | some m => .ok m
    | none => .error .tooLarge
  else .error .malformed

end Calculator
