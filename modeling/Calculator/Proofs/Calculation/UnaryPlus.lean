import Calculator.Proofs.Calculation.Admissible
import Calculator.Proofs.Syntax.InOrder
import Calculator.Proofs.Syntax.SignRun

/-!
# A plus before an operand

A plus stands before an operand exactly where the token before it leaves an operand wanting.

* What is derived ends with no such token (`Derives.getLast?_wantsOperand`), so that behind one no binary operator
  follows, and a plus there is a prefix operator.
* Without the plus, its operand stands in its place (`Occurs.erase_plus`).  The nodes before the hole are those that the
  tokens before the plus denote (`Around.denotes`), and so the node that is left out is the one of the plus.

Nothing else changes in the tree, and its value is the same, bit for bit (`parse_erase_plus`).
-/

namespace Calculator

/-! ### Nodes around a hole -/

namespace Context

/-- The nodes before the hole, in the order of `Expr.inOrder`. -/
def nodesBefore : Context → List Node
  | hole => []
  | unary op c => .unary op :: c.nodesBefore
  | left _ l _ => l.nodesBefore
  | right op l r => l.inOrder ++ .binary op :: r.nodesBefore

/-- The nodes behind the hole, in the order of `Expr.inOrder`. -/
def nodesAfter : Context → List Node
  | hole => []
  | unary _ c => c.nodesAfter
  | left op l r => l.nodesAfter ++ .binary op :: r.inOrder
  | right _ _ r => r.nodesAfter

theorem inOrder_fill (c : Context) (e : Expr) : (c.fill e).inOrder = c.nodesBefore ++ e.inOrder ++ c.nodesAfter := by
  induction c with
  | hole => simp [fill, nodesBefore, nodesAfter]
  | unary op c ih => simp [fill, Expr.inOrder, nodesBefore, nodesAfter, ih]
  | left op l r ih => simp [fill, Expr.inOrder, nodesBefore, nodesAfter, ih]
  | right op l r ih => simp [fill, Expr.inOrder, nodesBefore, nodesAfter, ih]

/-- A prefix operator in the hole is one node more. -/
theorem nodeCount_fill_unary (c : Context) (op : UnaryOp) (e : Expr) :
    (c.fill (.unary op e)).nodeCount = (c.fill e).nodeCount + 1 := by
  rw [← Expr.length_inOrder, ← Expr.length_inOrder, inOrder_fill, inOrder_fill, Expr.inOrder]
  simp only [List.length_append, List.length_cons]
  omega

theorem evaluate_fill_identity (c : Context) (e : Expr) :
    (c.fill (.unary .identity e)).evaluate = (c.fill e).evaluate := by
  apply c.evaluate_fill
  rw [Expr.evaluate_unary]
  cases e.evaluate <;> rfl

end Context

/-- The tokens before a hole denote the nodes before it. -/
theorem Around.denotes {hole category : Category} {d k : Nat} {before after : List Token} {c : Context}
    (h : Around hole category d k before after c) :
    List.Forall₂ Token.Denotes (before.filter (!·.isParen)) c.nodesBefore := by
  induction h with
  | hole => exact .nil
  | group inner ih =>
    rw [List.filter_cons_of_neg (by decide)]
    exact ih
  | signed ht operand ih =>
    rw [List.filter_cons_of_pos (by simp [isParen_of_unaryOp? ht])]
    exact .cons ht ih
  | unsigned operand ih | single operand ih | left hop l right ih => exact ih
  | @right _ _ _ _ _ _ _ _ _ op hop left r ih =>
    have hdenotes : (Token.operator op).Denotes (.binary op) := rfl
    rw [List.filter_append, List.filter_cons_of_pos (by rfl)]
    exact List.rel_append left.denotes (.cons hdenotes ih)

/-! ### Tokens before operands -/

/-- Whether an operand has to follow the token. -/
def Token.wantsOperand : Token → Bool
  | operator _ => true
  | function _ => true
  | leftParen => true
  | number _ => false
  | rightParen => false

/-- No operand has to follow what is derived. -/
theorem Derives.getLast?_wantsOperand {category : Category} {k : Nat} {ts : List Token} {e : Expr}
    (h : Derives category k ts e) : ∀ t ∈ ts.getLast?, t.wantsOperand = false := by
  induction h with
  | number hm => simp [Token.wantsOperand]
  | group inner ih => simp [List.getLast?_cons, Token.wantsOperand]
  | signed ht operand ih =>
    obtain ⟨t', ts', rfl⟩ := List.exists_cons_of_ne_nil operand.ne_nil
    rwa [List.getLast?_cons_cons]
  | unsigned operand ih | single operand ih => exact ih
  | extend hop left right ihl ihr =>
    obtain ⟨t', ts', rfl⟩ := List.exists_cons_of_ne_nil right.ne_nil
    rw [List.getLast?_append_of_ne_nil _ (by simp), List.getLast?_cons_cons]
    exact ihr

/-- A plus where an operand is wanted is a prefix operator, and may be left out: its operand takes its place. -/
theorem Occurs.erase_plus {category : Category} {k : Nat} {before after : List Token} {t : Expr}
    (h : Occurs (.operator .add) category k before after t) (hbefore : ∀ t ∈ before.getLast?, t.wantsOperand) :
    ∃ (c : Context) (e : Expr) (k' : Nat), t = c.fill (.unary .identity e) ∧
      List.Forall₂ Token.Denotes (before.filter (!·.isParen)) c.nodesBefore ∧
      Derives category k' (before ++ after) (c.fill e) ∧ k' ≤ k := by
  obtain @⟨_, _, d, k, j, outer, outer', inner, inner', c, _, around, part⟩ := h
  cases part with
  | number ht | leftParen ht | rightParen ht => cases ht
  | @signed tight j op _ e ht operand =>
    obtain rfl : .identity = op := Option.some.inj ht
    refine ⟨c, e, max k (d + j), rfl, ?_, ?_, ?_⟩
    · rw [List.append_nil]
      exact around.denotes
    · simpa using around.fill operand
    · omega
  | extend ht hop left right =>
    -- before a binary operator stands what its left operand ends with
    obtain ⟨last, hlast⟩ : ∃ last, inner.getLast? = some last := ⟨_, List.getLast?_eq_some_getLast left.ne_nil⟩
    have hwants : last.wantsOperand := by
      apply hbefore
      rw [List.getLast?_append_of_ne_nil _ left.ne_nil, hlast]
      rfl
    rw [left.getLast?_wantsOperand last hlast] at hwants
    cases hwants

/-! ### Whole lists -/

/-- In a list that is accepted, a plus at the beginning or behind a token that an operand has to follow may be left out:
the list is accepted without it, its tree lacks the node of the plus and no other, and has the same value. -/
theorem parse_erase_plus {before after : List Token} {t : Expr} (hbefore : ∀ t ∈ before.getLast?, t.wantsOperand)
    (ht : parse (before ++ .operator .add :: after) = .ok t) :
    ∃ (c : Context) (e : Expr) (x : Float), t = c.fill (.unary .identity e) ∧
      List.Forall₂ Token.Denotes (before.filter (!·.isParen)) c.nodesBefore ∧
      parse (before ++ after) = .ok (c.fill e) ∧ (c.fill e).nodeCount + 1 = t.nodeCount ∧
      t.evaluate = .ok x ∧ (c.fill e).evaluate = .ok x := by
  obtain ⟨k, hk, hnesting, hdepth⟩ := derives_of_parse ht
  obtain ⟨x, hx⟩ := (isAdmissible_of_parse ht).value
  obtain ⟨c, e, k', rfl, hnodes, hk', hle⟩ := hk.occurs.erase_plus hbefore
  have hless : (c.fill e).depth ≤ (c.fill (.unary .identity e)).depth := c.depth_fill_le (Nat.le_add_left _ _)
  refine ⟨c, e, x, rfl, hnodes, ?_, ?_, hx, ?_⟩
  · exact hk'.parse_eq_ok ⟨hle.trans hnesting, hless.trans hdepth⟩
  · rw [c.nodeCount_fill_unary]
  · rw [← c.evaluate_fill_identity, hx]

/-- In `2 ^ - + ( + 3 ) * sin 4` the first plus may be left out: the second stays, and so does the value, whatever a
power or a sine may be. -/
theorem parse_erase_plus_exponent :
    let before : List Token := [.number "2", .operator .pow, .operator .sub]
    let after : List Token :=
      [.leftParen, .operator .add, .number "3", .rightParen, .operator .mul, .function .sin, .number "4"]
    let product := fun exponent => Expr.binary .mul (.binary .pow (.value 2) (.unary .negate exponent))
      (.unary (.function .sin) (.value 4))
    let three := Expr.unary .identity (.value 3)
    parse (before ++ .operator .add :: after) = .ok (product (.unary .identity three)) ∧
      parse (before ++ after) = .ok (product three) ∧
      (product three).nodeCount + 1 = (product (.unary .identity three)).nodeCount ∧
      ∃ x, (product (.unary .identity three)).evaluate = .ok x ∧ (product three).evaluate = .ok x := by
  intro before after product three
  have hbefore : ∀ t ∈ before.getLast?, t.wantsOperand := by simp [before, Token.wantsOperand]
  have ht : parse (before ++ .operator .add :: after) = .ok (product (.unary .identity three)) := by decide +kernel
  have herased : parse (before ++ after) = .ok (product three) := by decide +kernel
  obtain ⟨c, e, x, -, -, hparse, hcount, hx, hx'⟩ := parse_erase_plus hbefore ht
  have htree : c.fill e = product three := Except.ok.inj (hparse.symm.trans herased)
  rw [htree] at hcount hx'
  exact ⟨ht, herased, hcount, x, hx, hx'⟩

end Calculator
