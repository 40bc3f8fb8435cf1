import Calculator.Syntax.Error

/-!
# Limits

Two things are bounded while an expression is read: how many groups and prefix operators enclose an operand, and the
depth of the tree.  An `Event` is a moment at which one of them grows; it is within the limits or ends the reading.
-/

namespace Calculator

/-- The greatest number of groups and prefix operators that may enclose an operand. -/
def maxNesting : Nat := 256

/-- The greatest depth of a tree. -/
def maxDepth : Nat := 1024

/-- What grows towards a limit, and the position of the token that makes it grow. -/
inductive Event
  /-- A group or prefix operator begins inside `nesting` others. -/
  | opened (position nesting : Nat)
  /-- An operator and its operands make a tree of the given depth. -/
  | built (position depth : Nat)
  deriving DecidableEq, Repr

namespace Event

/-- The position of the token that makes it grow. -/
def position : Event → Nat
  | opened p _ => p
  | built p _ => p

/-- Whether the limits permit the event. -/
def withinLimits : Event → Bool
  | opened _ nesting => nesting < maxNesting
  | built _ depth => depth ≤ maxDepth

end Event

/-- Refuses the first event that is not permitted. -/
def checkAll (permits : Event → Bool) (events : List Event) : Except SyntaxError Unit :=
  match events.find? (!permits ·) with
  | some event => .error (.nestingTooDeep event.position)
  | none => .ok ()

theorem checkAll_nil (permits : Event → Bool) : checkAll permits [] = .ok () :=
  rfl

/-- Events are refused in order. -/
theorem checkAll_append (permits : Event → Bool) (a b : List Event) :
    checkAll permits (a ++ b) = (do checkAll permits a; checkAll permits b) := by
  unfold checkAll
  rw [List.find?_append]
  cases a.find? (!permits ·) <;> rfl

end Calculator
