import Calculator.Proofs.Expr.Leaves

/-!
# Trees with a hole

What is said of a tree with a hole depends on what fills the hole only so far:

* a deeper filling makes the tree deeper or leaves its depth (`depth_fill_le`);
* fillings with the same value or error make trees with the same (`evaluate_fill`);
* a filling stands where a leaf would (`replaceLeaf_fill`).
-/

namespace Calculator

/-- A tree with a hole. -/
inductive Context
  | hole
  | unary (op : UnaryOp) (operand : Context)
  | left (op : BinaryOp) (l : Context) (r : Expr)
  | right (op : BinaryOp) (l : Expr) (r : Context)

namespace Context

/-- The tree with the hole filled. -/
def fill : Context → Expr → Expr
  | hole, e => e
  | unary op c, e => .unary op (c.fill e)
  | left op l r, e => .binary op (l.fill e) r
  | right op l r, e => .binary op l (r.fill e)

/-- The number of leaves before the hole. -/
def leavesBefore : Context → Nat
  | hole => 0
  | unary _ c => c.leavesBefore
  | left _ l _ => l.leavesBefore
  | right _ l r => l.leaves.length + r.leavesBefore

variable {e e' : Expr}

theorem depth_fill_le (c : Context) (h : e.depth ≤ e'.depth) : (c.fill e).depth ≤ (c.fill e').depth := by
  induction c with
  | hole => exact h
  | unary op c ih => exact Nat.add_le_add_left ih 1
  | left op l r ih =>
    simp only [fill, Expr.depth]
    omega
  | right op l r ih =>
    simp only [fill, Expr.depth]
    omega

theorem evaluate_fill (c : Context) (h : e.evaluate = e'.evaluate) : (c.fill e).evaluate = (c.fill e').evaluate := by
  induction c with
  | hole => exact h
  | unary op c ih | left op l r ih | right op l r ih => simp only [fill, Expr.evaluate, ih]

theorem leavesBefore_lt (c : Context) (e : Expr) : c.leavesBefore < (c.fill e).leaves.length := by
  induction c with
  | hole => exact List.length_pos_iff.2 e.leaves_ne_nil
  | unary op c ih => exact ih
  | left op l r ih =>
    rw [fill, Expr.leaves, List.length_append]
    exact Nat.lt_add_right _ ih
  | right op l r ih =>
    rw [fill, Expr.leaves, List.length_append]
    exact Nat.add_lt_add_left ih _

theorem replaceLeaf_fill (c : Context) (x : Float) (new : Expr) :
    (c.fill (.value x)).replaceLeaf c.leavesBefore new = c.fill new := by
  induction c with
  | hole => rfl
  | unary op c ih => simp only [fill, leavesBefore, Expr.replaceLeaf, ih]
  | left op l r ih => simp only [fill, leavesBefore, Expr.replaceLeaf, if_pos (l.leavesBefore_lt _), ih]
  | right op l r ih =>
    have hnot : ¬l.leaves.length + r.leavesBefore < l.leaves.length := by omega
    simp only [fill, leavesBefore, Expr.replaceLeaf, if_neg hnot, Nat.add_sub_cancel_left, ih]

end Context

end Calculator
