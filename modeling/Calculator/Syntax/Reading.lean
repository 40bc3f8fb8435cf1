import Calculator.Number.Literal
import Calculator.Syntax.Frame

/-!
# Reading token lists

A list is read from left to right with one token of lookahead.  Either an operand has to follow, or one is complete
and the next token decides what it belongs to.  `Reading.turn` gives, for each token, the events that it causes and
what it leads to; `Reading.run` checks the events as they come and carries on.

* where an operand has to follow, a number completes it, a group or prefix operator adds a frame, and any other token
  is an error;
* behind a complete operand, a binary operator completes the frames that bind as strongly as it does and waits for
  its right operand, a closing parenthesis completes everything back to the group, and any other token ends the
  expression, which is an error if a group is open.
-/

namespace Calculator

/-- How far an expression has been read. -/
inductive Reading
  /-- An operand has to follow. -/
  | wanting (frames : List Frame)
  /-- An operand is complete. -/
  | complete (frames : List Frame) (operand : Expr)
  deriving DecidableEq

/-- What a token leads to. -/
inductive Move
  /-- The token is taken. -/
  | next (reading : Reading)
  /-- Reading ends before the token, or, if it is `consumed`, after it. -/
  | halt (result : Except SyntaxError Expr) (consumed : Bool)

/-- The events that a token causes, and what it then leads to. -/
structure Turn where
  events : List Event
  move : Move

/-- Where reading begins: the level, and the number of groups and prefix operators around. -/
structure Setting where
  level : Level
  nesting : Nat
  deriving DecidableEq, Repr

/-- The value of a number token. -/
def readNumber (text : String) (position : Nat) : Except SyntaxError Float :=
  match readLiteral text.toList with
  | .ok m => .ok m.toFloat
  | .error .malformed => .error (.invalidNumber text position)
  | .error .tooLarge => .error (.literalTooLarge text position)

/-- How many groups and prefix operators enclose the next operand. -/
def Setting.nestingIn (s : Setting) (frames : List Frame) : Nat :=
  s.nesting + frames.countP Frame.encloses

/-- A power begins with a primary, so that no prefix operator can come first at that level. -/
def Setting.prefixOp? (s : Setting) (frames : List Frame) (t : Token) : Option UnaryOp :=
  if s.level = .power ∧ frames.isEmpty then none else t.unaryOp?

/-- Whether the next operand is an exponent. -/
def inExponent : List Frame → Bool
  | [] => false
  | frame :: _ => Level.power.strength ≤ frame.strength

/-- What becomes of a complete operand that nothing continues: it is the expression, unless a group is open. -/
def conclude (position : Nat) (frames : List Frame) (e : Expr) : List Event × Except SyntaxError Expr :=
  let settled := settle Level.sum.strength frames e
  match settled.frames with
  | [] => (settled.events, .ok settled.operand)
  | _ :: _ => (settled.events, .error (.missingClosingParen position))

namespace Reading

/-- The turn of the token at `position`. -/
def turn (s : Setting) (position : Nat) : Reading → Token → Turn
  | wanting frames, .number text =>
    match readNumber text position with
    | .ok x => ⟨[], .next (complete frames (.value x))⟩
    | .error error => ⟨[], .halt (.error error) true⟩
  | wanting frames, .leftParen =>
    ⟨[.opened position (s.nestingIn frames)], .next (wanting (.group :: frames))⟩
  | wanting frames, t =>
    match s.prefixOp? frames t with
    | some op =>
      ⟨[.opened position (s.nestingIn frames)], .next (wanting (.unary op position (inExponent frames) :: frames))⟩
    | none => ⟨[], .halt (.error (.unexpectedToken t position)) false⟩
  | complete frames e, .operator op =>
    let settled := settle op.strength frames e
    if settled.frames.isEmpty ∧ op.strength < s.level.strength then ⟨settled.events, .halt (.ok settled.operand) false⟩
    else ⟨settled.events, .next (wanting (.binary settled.operand op position :: settled.frames))⟩
  | complete frames e, .rightParen =>
    let settled := settle Level.sum.strength frames e
    match settled.frames with
    | [] => ⟨settled.events, .halt (.ok settled.operand) false⟩
    | _ :: outer => ⟨settled.events, .next (complete outer settled.operand)⟩
  | complete frames e, _ =>
    let (events, result) := conclude position frames e
    ⟨events, .halt result false⟩

/-- The events at the end of the list and what reading comes to there; `ended` is the error if an operand has to
follow. -/
def finish (ended : SyntaxError) (position : Nat) : Reading → List Event × Except SyntaxError Expr
  | wanting _ => ([], .error ended)
  | complete frames e => conclude position frames e

end Reading

/-- What reading comes to, and the position at which it ends. -/
structure Outcome where
  result : Except SyntaxError Expr
  position : Nat

/-- Reads on over the tokens from `position`, as long as all events are permitted. -/
def Reading.run (permits : Event → Bool) (s : Setting) (ended : SyntaxError) : Reading → Nat → List Token → Outcome
  | reading, position, [] =>
    let (events, result) := reading.finish ended position
    ⟨do checkAll permits events; result, position⟩
  | reading, position, t :: ts =>
    let turn := reading.turn s position t
    match checkAll permits turn.events, turn.move with
    | .error refusal, _ => ⟨.error refusal, position⟩
    | .ok (), .halt result consumed => ⟨result, if consumed then position + 1 else position⟩
    | .ok (), .next reading => run permits s ended reading (position + 1) ts

end Calculator
