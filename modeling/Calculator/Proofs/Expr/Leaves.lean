import Calculator.Expr.Evaluation

/-!
# Leaves and subtrees

* no subtree is deeper than the tree (`depth_le_of_mem_subtrees`);
* a tree whose leaves are finite has a value (`exists_evaluate_eq`);
* `replaceLeaf` puts a tree in the place of a leaf, leaves being counted from the left.
-/

namespace Calculator

namespace Expr

/-- The values at the leaves, from left to right. -/
def leaves : Expr → List Float
  | value x => [x]
  | unary _ e => e.leaves
  | binary _ l r => l.leaves ++ r.leaves

/-- The tree and all trees below it. -/
def subtrees : Expr → List Expr
  | value x => [value x]
  | unary op e => unary op e :: e.subtrees
  | binary op l r => binary op l r :: (l.subtrees ++ r.subtrees)

/-- The tree with `new` in the place of leaf `n`. -/
def replaceLeaf : Expr → (n : Nat) → (new : Expr) → Expr
  | value x, n, new => if n = 0 then new else value x
  | unary op e, n, new => unary op (e.replaceLeaf n new)
  | binary op l r, n, new =>
    if n < l.leaves.length then binary op (l.replaceLeaf n new) r
    else binary op l (r.replaceLeaf (n - l.leaves.length) new)

theorem leaves_ne_nil (e : Expr) : e.leaves ≠ [] := by
  induction e with
  | value x => simp [leaves]
  | unary op e ih => exact ih
  | binary op l r ihl ihr => simp [leaves, ihl]

theorem depth_le_of_mem_subtrees {s e : Expr} (h : s ∈ e.subtrees) : s.depth ≤ e.depth := by
  induction e with
  | value x =>
    obtain rfl : s = value x := by simpa [subtrees] using h
    exact Nat.le_refl _
  | unary op e ih =>
    rcases List.mem_cons.1 h with rfl | h
    · exact Nat.le_refl _
    · have := ih h
      simp only [depth]
      omega
  | binary op l r ihl ihr =>
    rcases List.mem_cons.1 h with rfl | h
    · exact Nat.le_refl _
    · simp only [depth]
      rcases List.mem_append.1 h with h | h
      · have := ihl h
        omega
      · have := ihr h
        omega

/-- Nothing but a leaf keeps a tree from having a value. -/
theorem exists_evaluate_eq {e : Expr} (h : ∀ x ∈ e.leaves, x.isFinite) : ∃ x, e.evaluate = .ok x := by
  induction e with
  | value x => exact ⟨x, by simp [evaluate, h x (by simp [leaves])]⟩
  | unary op e ih =>
    obtain ⟨x, hx⟩ := ih h
    exact ⟨op.apply x, by simp [evaluate, hx, bind, Except.bind, pure, Except.pure]⟩
  | binary op l r ihl ihr =>
    obtain ⟨x, hx⟩ := ihl fun x hx => h x (List.mem_append_left _ hx)
    obtain ⟨y, hy⟩ := ihr fun y hy => h y (List.mem_append_right _ hy)
    exact ⟨op.apply x y, by simp [evaluate, hx, hy, bind, Except.bind, pure, Except.pure]⟩

end Expr

end Calculator
