import Calculator.Expr.Operator

/-!
# Expression trees

* `Expr.nodeCount` and `Expr.depth` measure a tree; a single value has depth 1;
* `Expr.agrees` compares two trees node by node, their values as numbers: `0` agrees with `-0`, and NaN with nothing.
-/

namespace Calculator

/-- An expression: a value, or an operator applied to smaller expressions. -/
inductive Expr
  | value (x : Float)
  | unary (op : UnaryOp) (operand : Expr)
  | binary (op : BinaryOp) (left right : Expr)
  deriving DecidableEq

namespace Expr

/-- The number of nodes. -/
def nodeCount : Expr → Nat
  | value _ => 1
  | unary _ e => 1 + e.nodeCount
  | binary _ l r => 1 + l.nodeCount + r.nodeCount

/-- The number of nodes on a longest path from the root. -/
def depth : Expr → Nat
  | value _ => 1
  | unary _ e => 1 + e.depth
  | binary _ l r => 1 + max l.depth r.depth

/-- Whether two trees have the same shape and operators, and numerically equal values. -/
def agrees : Expr → Expr → Bool
  | value x, value y => x == y
  | unary op e, unary op' e' => op == op' && e.agrees e'
  | binary op l r, binary op' l' r' => op == op' && l.agrees l' && r.agrees r'
  | _, _ => false

theorem depth_pos (e : Expr) : 0 < e.depth := by
  cases e <;> simp only [depth] <;> omega

theorem depth_le_nodeCount (e : Expr) : e.depth ≤ e.nodeCount := by
  induction e with
  | value x => simp [depth, nodeCount]
  | unary op e ih => simp only [depth, nodeCount]; omega
  | binary op l r ihl ihr => simp only [depth, nodeCount]; omega

end Expr

end Calculator
