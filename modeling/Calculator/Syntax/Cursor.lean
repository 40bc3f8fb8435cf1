import Calculator.Syntax.Reading

/-!
# Cursors

A cursor is a position in a token list together with the number of groups and prefix operators around it.  It can be
moved by hand, and expressions of each level can be read from it; `parse` reads a whole list as a sum.
-/

namespace Calculator

/-- A position in a token list. -/
structure Cursor where
  tokens : List Token
  position : Nat := 0
  nesting : Nat := 0
  deriving DecidableEq, Repr

namespace Cursor

/-- The token at the cursor. -/
def peek (c : Cursor) : Option Token :=
  c.tokens[c.position]?

/-- The cursor past its token; at the end it stays. -/
def advance (c : Cursor) : Cursor :=
  if c.position < c.tokens.length then { c with position := c.position + 1 } else c

/-- The cursor one group or prefix operator further in, which a token at `position` opens. -/
def descend (c : Cursor) (position : Nat) : Except SyntaxError Cursor := do
  checkAll Event.withinLimits [.opened position c.nesting]
  return { c with nesting := c.nesting + 1 }

/-- The cursor one group or prefix operator further out. -/
def ascend (c : Cursor) : Cursor :=
  { c with nesting := c.nesting - 1 }

/-- The error if an operand has to follow the cursor and the tokens end there. -/
def endOfInput (c : Cursor) : SyntaxError :=
  match c.position with
  | 0 => .emptyExpression
  | last + 1 =>
    match c.tokens[last]? with
    | some t => .incompleteExpression t last
    | none => .emptyExpression

/-- Reads an expression of the given level as far as it goes, as long as all events are permitted. -/
def readWith (permits : Event → Bool) (c : Cursor) (level : Level) : Except SyntaxError Expr × Cursor :=
  let ended := { c with position := c.tokens.length }.endOfInput
  let outcome := Reading.run permits ⟨level, c.nesting⟩ ended (.wanting []) c.position (c.tokens.drop c.position)
  (outcome.result, { c with position := outcome.position })

/-- Reads an expression of the given level, as far as it goes and within the limits. -/
def read (c : Cursor) (level : Level) : Except SyntaxError Expr × Cursor :=
  c.readWith Event.withinLimits level

/-- Reading moves the cursor and changes nothing else. -/
theorem readWith_snd (permits : Event → Bool) (c : Cursor) (level : Level) :
    (c.readWith permits level).2 = { c with position := (c.readWith permits level).2.position } :=
  rfl

end Cursor

/-- The tree of a whole token list, as long as all events are permitted. -/
def parseWith (permits : Event → Bool) (tokens : List Token) : Except SyntaxError Expr := do
  let (result, c) := Cursor.readWith permits { tokens } .sum
  let tree ← result
  match c.peek with
  | some t => .error (.trailingTokens t c.position)
  | none => .ok tree

/-- The tree of a whole token list, within the limits. -/
def parse : List Token → Except SyntaxError Expr :=
  parseWith Event.withinLimits

end Calculator
