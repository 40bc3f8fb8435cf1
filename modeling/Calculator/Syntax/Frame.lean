import Calculator.Expr.Basic
import Calculator.Syntax.Limit

/-!
# Frames

The grammar, with all repetitions grouped to the left:

* a sum is products joined by `+` and `-`, a product is signed powers joined by `*` and `/`;
* a signed power is a power behind any number of prefix operators;
* a power is a primary joined by `^` and `e` to exponents, an exponent is a primary behind any number of prefix
  operators;
* a primary is a number or a sum in parentheses.

What stands to the left of a token and still lacks its right end is kept as a stack of frames, the innermost first.
When an operand is complete, those frames that bind strongly enough are completed with it (`settle`).  The frames that
are left are the outer ones (`settle_frames_suffix`), and the innermost of them binds less or is a group
(`settle_head`).
-/

namespace Calculator

/-! ### Strengths -/

/-- The levels at which reading may begin. -/
inductive Level
  | sum | product | power
  deriving DecidableEq, Repr

/-- How strongly the operators of a level bind. -/
def Level.strength : Level → Nat
  | sum => 1
  | product => 2
  | power => 4

/-- The level whose operands the operator joins. -/
def BinaryOp.level : BinaryOp → Level
  | add | sub => .sum
  | mul | div => .product
  | pow | sci => .power

/-- How strongly the operator binds. -/
def BinaryOp.strength (op : BinaryOp) : Nat :=
  op.level.strength

theorem BinaryOp.strength_pos (op : BinaryOp) : 0 < op.strength := by
  cases op <;> decide

/-! ### Frames -/

/-- What lacks its right end: a group, a prefix operator, or a binary operator behind its left operand.  A prefix
operator is tight in an exponent, where it takes a primary, and else takes a power. -/
inductive Frame
  | group
  | unary (op : UnaryOp) (position : Nat) (tight : Bool)
  | binary (left : Expr) (op : BinaryOp) (position : Nat)
  deriving DecidableEq

namespace Frame

/-- How strongly the frame binds what follows it: a group not at all, a prefix operator more than products and less
than powers, and in an exponent more than anything else. -/
def strength : Frame → Nat
  | group => 0
  | unary _ _ tight => if tight then 5 else 3
  | binary _ op _ => op.strength

/-- Whether the frame counts as nesting for the operands inside it. -/
def encloses : Frame → Bool
  | group => true
  | unary _ _ _ => true
  | binary _ _ _ => false

/-- The tree that an operand completes, and the position of its operator. -/
def build? : Frame → Expr → Option (Nat × Expr)
  | group, _ => none
  | unary op p _, e => some (p, .unary op e)
  | binary l op p, e => some (p, .binary op l e)

end Frame

/-- What completing frames leaves: the events on the way, the other frames, and the operand that they wait for. -/
structure Settled where
  events : List Event
  frames : List Frame
  operand : Expr
  deriving DecidableEq

/-- Completes the innermost frames with an operand, as long as they bind with at least the given strength. -/
def settle (strength : Nat) : List Frame → Expr → Settled
  | [], e => ⟨[], [], e⟩
  | frame :: frames, e =>
    if strength ≤ frame.strength then
      match frame.build? e with
      | some (p, tree) =>
        let settled := settle strength frames tree
        { settled with events := .built p tree.depth :: settled.events }
      | none => ⟨[], frame :: frames, e⟩
    else ⟨[], frame :: frames, e⟩

/-! ### What settling leaves -/

theorem settle_head {strength : Nat} {frames outer : List Frame} {e : Expr} {frame : Frame}
    (h : (settle strength frames e).frames = frame :: outer) : frame.strength < strength ∨ frame = .group := by
  induction frames generalizing e with
  | nil => simp [settle] at h
  | cons inner frames ih =>
    unfold settle at h
    split at h
    · split at h
      · exact ih h
      · rename_i hb
        cases inner with
        | group => right; simpa using (List.cons.inj h).1.symm
        | unary op p tight => simp [Frame.build?] at hb
        | binary l op p => simp [Frame.build?] at hb
    · rename_i hs
      left
      have := (List.cons.inj h).1
      subst this
      omega

end Calculator
