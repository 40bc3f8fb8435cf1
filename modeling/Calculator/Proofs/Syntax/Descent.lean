import Calculator.Proofs.Syntax.Course

/-!
# Reading by recursive descent

The grammar read level by level, without limits.  A chain of the operators of a level begins with a first operand and
is then extended, operator by operator; a signed operand is prefix operators and what stands behind them; a primary is
a number or a group.

`descend` records the events in the order in which it enters groups and prefix operators and completes nodes, and
counts the tokens that it takes, so that what is left is a suffix of the list.  Behind a tree that it returns, no
operator of the category read can follow (`descend_endsAt`).
-/

namespace Calculator

/-! ### Categories -/

/-- What can be read: a chain of the operators of a level, a primary behind prefix operators (`tight`, as in an
exponent) or a power behind prefix operators, and a primary. -/
inductive Category
  | chain (level : Level)
  | signed (tight : Bool)
  | primary
  deriving DecidableEq

/-- What a chain begins with. -/
def Level.first : Level → Category
  | sum => .chain .product
  | product => .signed false
  | power => .primary

/-- What follows an operator in a chain. -/
def Level.next : Level → Category
  | sum => .chain .product
  | product => .signed false
  | power => .signed true

/-- What stands behind prefix operators. -/
def unsigned : Bool → Category
  | false => .chain .power
  | true => .primary

namespace Category

/-- Operators that bind with this strength or more belong to the category or to what it is made of. -/
def strength : Category → Nat
  | chain level => level.strength
  | signed tight => if tight then 6 else 4
  | primary => 6

/-- How many categories deep the category lies above a primary. -/
def height : Category → Nat
  | chain .sum => 5
  | chain .product => 4
  | chain .power => 2
  | signed tight => if tight then 2 else 3
  | primary => 1

theorem height_pos (c : Category) : 0 < c.height := by
  rcases c with (_ | _ | _) | (_ | _) | _ <;> decide

theorem height_first (level : Level) : level.first.height < (chain level).height := by
  cases level <;> decide

theorem height_unsigned (tight : Bool) : (unsigned tight).height < (signed tight).height := by
  cases tight <;> decide

end Category

/-! ### Descents -/

/-- What a descent comes to: the events on the way, the tree or the error, and the number of tokens taken. -/
structure Descent where
  events : List Event
  result : Except SyntaxError Expr
  taken : Nat

namespace Descent

/-- A tree, with no token taken. -/
def done (e : Expr) : Descent :=
  ⟨[], .ok e, 0⟩

/-- An error at the next token. -/
def fail (error : SyntaxError) : Descent :=
  ⟨[], .error error, 0⟩

/-- Something happens before the descent. -/
def after (event : Event) (d : Descent) : Descent :=
  { d with events := event :: d.events }

/-- A token is taken before the descent. -/
def behind (d : Descent) : Descent :=
  { d with taken := d.taken + 1 }

/-- Carries on behind a tree, with the number of tokens taken; an error ends the descent. -/
def andThen (d : Descent) (next : Expr → Nat → Descent) : Descent :=
  match d.result with
  | .ok e => ⟨d.events ++ (next e d.taken).events, (next e d.taken).result, d.taken + (next e d.taken).taken⟩
  | .error _ => d

@[simp]
theorem result_after (event : Event) (d : Descent) : (d.after event).result = d.result :=
  rfl

@[simp]
theorem taken_after (event : Event) (d : Descent) : (d.after event).taken = d.taken :=
  rfl

@[simp]
theorem result_behind (d : Descent) : d.behind.result = d.result :=
  rfl

@[simp]
theorem taken_behind (d : Descent) : d.behind.taken = d.taken + 1 :=
  rfl

variable {d : Descent} {next : Expr → Nat → Descent} {e : Expr}

theorem andThen_of_ok (h : d.result = .ok e) :
    d.andThen next =
      ⟨d.events ++ (next e d.taken).events, (next e d.taken).result, d.taken + (next e d.taken).taken⟩ := by
  simp only [andThen, h]

theorem andThen_of_error {error : SyntaxError} (h : d.result = .error error) : d.andThen next = d := by
  simp only [andThen, h]

/-- Both parts of a descent that comes to a tree come to one. -/
theorem ok_of_andThen {e' : Expr} (h : (d.andThen next).result = .ok e') :
    ∃ e, d.result = .ok e ∧ (next e d.taken).result = .ok e' ∧
      (d.andThen next).taken = d.taken + (next e d.taken).taken := by
  cases hd : d.result with
  | error error => rw [andThen_of_error hd, hd] at h; cases h
  | ok e =>
    rw [andThen_of_ok hd] at h ⊢
    exact ⟨e, rfl, h, rfl⟩

end Descent

/-- What a descent is to do. -/
inductive Goal
  /-- Read something of a category. -/
  | read (category : Category)
  /-- Extend a chain, as far as operators of its level follow. -/
  | extend (level : Level) (left : Expr)

/-- A bound for the descents in a row that take no token. -/
def Goal.height : Goal → Nat
  | read category => category.height
  | extend _ _ => 0

open Descent in
/-- Reads on inside `nesting` groups and prefix operators, over the tokens from `position`; `ended` is the error if an
operand has to follow at the end of the list. -/
def descend (ended : SyntaxError) : Goal → (nesting position : Nat) → List Token → Descent
  | .read (.chain level), n, p, ts =>
    (descend ended (.read level.first) n p ts).andThen fun left k =>
      descend ended (.extend level left) n (p + k) (ts.drop k)
  | .extend level left, n, p, .operator op :: ts =>
    if op.level = level then
      behind <| (descend ended (.read level.next) n (p + 1) ts).andThen fun right k =>
        after (.built p (Expr.binary op left right).depth) <|
          descend ended (.extend level (.binary op left right)) n (p + 1 + k) (ts.drop k)
    else done left
  | .extend _ left, _, _, _ => done left
  | .read (.signed tight), n, p, [] => descend ended (.read (unsigned tight)) n p []
  | .read (.signed tight), n, p, t :: ts =>
    match t.unaryOp? with
    | some op =>
      after (.opened p n) <| behind <| (descend ended (.read (.signed tight)) (n + 1) (p + 1) ts).andThen fun e _ =>
        after (.built p (Expr.unary op e).depth) <| done (.unary op e)
    | none => descend ended (.read (unsigned tight)) n p (t :: ts)
  | .read .primary, _, p, .number text :: _ =>
    match readNumber text p with
    | .ok x => behind <| done (.value x)
    | .error error => behind <| fail error
  | .read .primary, n, p, .leftParen :: ts =>
    after (.opened p n) <| behind <| (descend ended (.read (.chain .sum)) (n + 1) (p + 1) ts).andThen fun e k =>
      match ts.drop k with
      | .rightParen :: _ => behind <| done e
      | _ => fail (.missingClosingParen (p + 1 + k))
  | .read .primary, _, p, t :: _ => fail (.unexpectedToken t p)
  | .read .primary, _, _, [] => fail ended
termination_by goal _ _ ts => (ts.length, goal.height)
decreasing_by
  all_goals simp only [Prod.lex_def, Goal.height, List.length_drop, List.length_cons]
  · exact .inr ⟨trivial, Category.height_first level⟩
  -- a chain may be extended before any token of it is taken
  · have := Category.height_pos (.chain level)
    omega
  · omega
  · omega
  · exact .inr ⟨trivial, Category.height_unsigned tight⟩
  · omega
  · exact .inr ⟨trivial, Category.height_unsigned tight⟩
  · omega

/-! ### What follows a tree -/

/-- The operands of a level end where no operator follows that binds more strongly than the level. -/
theorem bindsBelow_of_next {level : Level} {ts : List Token} (h : BindsBelow level.next.strength ts) :
    BindsBelow (level.strength + 1) ts := by
  intro op hop
  have := h op hop
  cases level <;> cases op <;> revert this <;> decide

theorem Level.strength_first (level : Level) : level.first.strength = level.next.strength := by
  cases level <;> rfl

/-- No operator binds more strongly than the prefix operators of an exponent. -/
theorem bindsBelow_six (ts : List Token) : BindsBelow 6 ts := by
  intro op _
  cases op <;> decide

/-- What stands behind prefix operators ends where nothing follows that binds more strongly than they do. -/
theorem strength_unsigned (tight : Bool) : (unsigned tight).strength = (Category.signed tight).strength := by
  cases tight <;> rfl

/-- Whether `rest`, behind a tree read from `ts`, begins with no operator that could have been taken. -/
def Goal.EndsAt : Goal → (ts rest : List Token) → Prop
  | .read category, _, rest => BindsBelow category.strength rest
  | .extend level _, ts, rest => BindsBelow (level.strength + 1) ts → BindsBelow level.strength rest

/-- A descent to a tree takes all the operators that it can. -/
theorem descend_endsAt {ended : SyntaxError} {goal : Goal} {n p : Nat} {ts : List Token} {e : Expr}
    (h : (descend ended goal n p ts).result = .ok e) : goal.EndsAt ts (ts.drop (descend ended goal n p ts).taken) := by
  fun_induction descend ended goal n p ts generalizing e with
  | case1 level n p ts ihFirst ihExtend =>
    obtain ⟨left, hleft, hrest, htaken⟩ := Descent.ok_of_andThen h
    rw [htaken, ← List.drop_drop]
    refine ihExtend left _ hrest (bindsBelow_of_next ?_)
    rw [← Level.strength_first]
    exact ihFirst hleft
  | case2 left n p op ts ihNext ihExtend =>
    intro _
    obtain ⟨right, hright, hrest, htaken⟩ := Descent.ok_of_andThen h
    rw [Descent.taken_behind, List.drop_succ_cons, htaken, Descent.taken_after, ← List.drop_drop]
    exact ihExtend right _ hrest (bindsBelow_of_next (ihNext hright))
  | case3 level left n p op ts hlevel =>
    -- no tighter operator can follow, and the one that does belongs to another level, so it binds less
    intro hb op' hop
    have hlt := hb op' hop
    obtain rfl : op = op' := by simpa [Descent.done] using hop
    cases level <;> cases op <;> revert hlevel hlt <;> decide
  | case4 n p level left ts hts =>
    intro _ op hop
    obtain ⟨tail, rfl⟩ := List.head?_eq_some_iff.1 hop
    exact (hts op tail rfl).elim
  | case5 tight n p ih =>
    rw [Goal.EndsAt, ← strength_unsigned]
    exact ih h
  | case6 tight n p t ts op hop ih =>
    obtain ⟨inner, hinner, -, htaken⟩ := Descent.ok_of_andThen h
    rw [Descent.taken_after, Descent.taken_behind, List.drop_succ_cons, htaken]
    exact ih hinner
  | case7 tight n p t ts hop ih =>
    rw [Goal.EndsAt, ← strength_unsigned]
    exact ih h
  | case8 | case9 | case10 | case11 | case12 => exact bindsBelow_six _

end Calculator
