import Calculator.Proofs.Syntax.Parentheses
import Mathlib.Data.List.Forall2

/-!
# Trees in order

`Expr.inOrder` lists the nodes of a tree, an operator between its operands or before its operand.  Each token but the
parentheses denotes one node, and they come in that order (`Derives.readsInOrder`).  So no token is lost, doubled or
moved when tokens are read, by `parse` or from any cursor (`read_readsInOrder`).
-/

namespace Calculator

/-! ### Nodes -/

/-- A node of a tree, without the nodes below it. -/
inductive Node
  | value (x : Float)
  | unary (op : UnaryOp)
  | binary (op : BinaryOp)
  deriving DecidableEq

/-- The nodes of a tree: a prefix operator and then its operand, a binary operator between its operands. -/
def Expr.inOrder : Expr → List Node
  | value x => [.value x]
  | unary op e => .unary op :: e.inOrder
  | binary op l r => l.inOrder ++ .binary op :: r.inOrder

theorem Expr.length_inOrder (e : Expr) : e.inOrder.length = e.nodeCount := by
  induction e with
  | value x => rfl
  | unary op e ih =>
    rw [inOrder, nodeCount, List.length_cons, ih, Nat.add_comm]
  | binary op l r ihl ihr =>
    rw [inOrder, nodeCount, List.length_append, List.length_cons, ihl, ihr]
    omega

/-- Whether the token is how the node is written; wherever it stands, a number has to be read as the value. -/
def Token.Denotes (t : Token) : Node → Prop
  | .value x => ∃ text, t = .number text ∧ ∀ position, readNumber text position = .ok x
  | .unary op => t.unaryOp? = some op
  | .binary op => t.binaryOp? = some op

/-! ### Tokens in the order of a tree -/

/-- The parentheses among the tokens match each other, and all other tokens are the nodes of the tree in order. -/
structure ReadsInOrder (tokens : List Token) (e : Expr) : Prop where
  isBalanced : IsBalanced tokens
  denotes : List.Forall₂ Token.Denotes (tokens.filter (!·.isParen)) e.inOrder

theorem ReadsInOrder.nodeCount_eq {tokens : List Token} {e : Expr} (h : ReadsInOrder tokens e) :
    e.nodeCount + tokens.countP Token.isParen = tokens.length := by
  have hnodes := h.denotes.length_eq
  rw [e.length_inOrder, ← List.countP_eq_length_filter] at hnodes
  have hall := tokens.length_eq_countP_add_countP Token.isParen
  simp only [Bool.not_eq_true, Bool.decide_eq_false] at hall
  omega

theorem Derives.denotes {category : Category} {k : Nat} {ts : List Token} {e : Expr} (h : Derives category k ts e) :
    List.Forall₂ Token.Denotes (ts.filter (!·.isParen)) e.inOrder := by
  induction h with
  | @number text m hm =>
    have hvalue : ∀ position, readNumber text position = .ok m.toFloat := fun _ => readNumber_eq_ok_iff.2 ⟨m, hm, rfl⟩
    exact .cons ⟨text, rfl, hvalue⟩ .nil
  | @group k ts e _ ih =>
    have hfilter : (Token.leftParen :: (ts ++ [.rightParen])).filter (!·.isParen) = ts.filter (!·.isParen) := by
      rw [List.filter_cons_of_neg (by decide), List.filter_append, List.filter_cons_of_neg (by decide), List.filter_nil,
        List.append_nil]
    rwa [hfilter]
  | signed ht _ ih =>
    rw [List.filter_cons_of_pos (by simp [isParen_of_unaryOp? ht])]
    exact .cons ht ih
  | unsigned _ ih | single _ ih => exact ih
  | @extend _ _ _ _ _ _ _ op _ _ _ ihl ihr =>
    have hop : (Token.operator op).Denotes (.binary op) := rfl
    rw [List.filter_append, List.filter_cons_of_pos (by rfl)]
    exact List.rel_append ihl (.cons hop ihr)

theorem Derives.readsInOrder {category : Category} {k : Nat} {ts : List Token} {e : Expr}
    (h : Derives category k ts e) : ReadsInOrder ts e :=
  ⟨h.isBalanced, h.denotes⟩

/-! ### What is read -/

theorem readsInOrder_of_parse {tokens : List Token} {e : Expr} (h : parse tokens = .ok e) : ReadsInOrder tokens e := by
  obtain ⟨k, hk, -⟩ := derives_of_parse h
  exact hk.readsInOrder

/-- From a cursor, the tokens up to where it stops are read. -/
theorem readsInOrder_of_read {c : Cursor} {level : Level} {e : Expr} (h : (c.read level).1 = .ok e) :
    let stop := (c.read level).2.position
    c.position < stop ∧ stop ≤ c.tokens.length ∧ ReadsInOrder (c.tokens.extract c.position stop) e := by
  intro stop
  obtain ⟨k, ts, hprefix, hend, hk, -⟩ := derives_of_read h
  have hstop : stop = c.position + ts.length := hend
  have hpos : 0 < ts.length := List.length_pos_iff.2 hk.ne_nil
  have hlength : ts.length ≤ c.tokens.length - c.position := by simpa using hprefix.length_le
  have hpassed : c.tokens.extract c.position stop = ts := by
    rw [List.extract_eq_take_drop, hstop, Nat.add_sub_cancel_left]
    exact (List.prefix_iff_eq_take.1 hprefix).symm
  refine ⟨by omega, by omega, ?_⟩
  rw [hpassed]
  exact hk.readsInOrder

/-- The parentheses in tokens that are read, as a whole list or from a cursor, match each other, and the other tokens
are the nodes of the tree in order, so that there are as many of these. -/
theorem read_readsInOrder :
    (∀ (tokens : List Token) (e : Expr), parse tokens = .ok e →
      ReadsInOrder tokens e ∧ e.nodeCount + tokens.countP Token.isParen = tokens.length) ∧
      ∀ (c : Cursor) (level : Level) (e : Expr), (c.read level).1 = .ok e →
        let stop := (c.read level).2.position
        let passed := c.tokens.extract c.position stop
        (c.position < stop ∧ stop ≤ c.tokens.length) ∧
          ReadsInOrder passed e ∧ e.nodeCount + passed.countP Token.isParen = passed.length := by
  refine ⟨fun tokens e h => ?_, fun c level e h => ?_⟩
  · have hread := readsInOrder_of_parse h
    exact ⟨hread, hread.nodeCount_eq⟩
  · obtain ⟨hstart, hstop, hread⟩ := readsInOrder_of_read h
    exact ⟨⟨hstart, hstop⟩, hread, hread.nodeCount_eq⟩

/-- In `) ( 1 + - 2 ) e 3 * 4` a power is read from the second token on; it ends before the product sign, behind four
operands and operators in two parentheses. -/
theorem read_readsInOrder_power :
    let c : Cursor := ⟨[.rightParen, .leftParen, .number "1", .operator .add, .operator .sub, .number "2", .rightParen,
      .operator .sci, .number "3", .operator .mul, .number "4"], 1, 0⟩
    let e : Expr := .binary .sci (.binary .add (.value 1) (.unary .negate (.value 2))) (.value 3)
    (c.read .power).1 = .ok e ∧ ReadsInOrder (c.tokens.extract 1 9) e ∧
      e.inOrder = [.value 1, .binary .add, .unary .negate, .value 2, .binary .sci, .value 3] := by
  intro c e
  have h : (c.read .power).1 = .ok e := by decide +kernel
  have hstop : (c.read .power).2.position = 9 := by decide +kernel
  obtain ⟨-, hread, -⟩ := read_readsInOrder.2 c .power e h
  rw [hstop] at hread
  exact ⟨h, hread, rfl⟩

end Calculator
