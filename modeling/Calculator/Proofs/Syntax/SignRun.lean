import Calculator.Proofs.Number.Sign
import Calculator.Proofs.Syntax.Context

/-!
# Splitting signs

A run of minus signs is one sign token.  Written as two runs, it is two sign tokens, and the tree changes: in the place
of a prefix operator there are two, and behind a binary operator the second stands before the first factor of the
product to its right.

* a sign before the first factor of a product is the sign of the product (`Derives.product_behind`);
* so lists with one token or two have trees of the same value, the second neither less nested nor less deep
  (`isSplit_sign`);
* hence they are accepted together, limits aside (`IsSplit.parse_eq_ok`, `IsSplit.parse_split`).
-/

namespace Calculator

/-! ### Signs -/

/-- The binary operator that a run of `n` minus signs is. -/
def signBinary (n : Nat) : BinaryOp :=
  if n % 2 = 1 then .sub else .add

/-- The prefix operator that a run of `n` minus signs is. -/
def signUnary (n : Nat) : UnaryOp :=
  if n % 2 = 1 then .negate else .identity

/-- The token that a run of `n` minus signs is. -/
def signToken (n : Nat) : Token :=
  .operator (signBinary n)

theorem unaryOp?_signToken (n : Nat) : (signToken n).unaryOp? = some (signUnary n) := by
  unfold signToken signBinary signUnary
  split <;> rfl

theorem level_signBinary (n : Nat) : (signBinary n).level = .sum := by
  unfold signBinary
  split <;> rfl

theorem apply_signUnary_add (m n : Nat) (x : Float) :
    (signUnary (m + n)).apply x = (signUnary m).apply ((signUnary n).apply x) := by
  rcases Nat.mod_two_eq_zero_or_one m with hm | hm <;> rcases Nat.mod_two_eq_zero_or_one n with hn | hn <;>
    simp [signUnary, UnaryOp.apply, Nat.add_mod, hm, hn, Binary64.neg_neg]

theorem apply_signBinary_add (m n : Nat) (x y : Float) :
    (signBinary (m + n)).apply x y = (signBinary m).apply x ((signUnary n).apply y) := by
  rcases Nat.mod_two_eq_zero_or_one m with hm | hm <;> rcases Nat.mod_two_eq_zero_or_one n with hn | hn <;>
    simp [signBinary, signUnary, UnaryOp.apply, BinaryOp.apply, Nat.add_mod, hm, hn, Binary64.sub_neg, Binary64.add_neg]

theorem apply_signUnary_left {op : BinaryOp} (h : op.level = .product) (n : Nat) (x y : Float) :
    op.apply ((signUnary n).apply x) y = (signUnary n).apply (op.apply x y) := by
  rcases Nat.mod_two_eq_zero_or_one n with hn | hn
  · simp [signUnary, UnaryOp.apply, hn]
  · cases op with
    | mul => simp [signUnary, UnaryOp.apply, BinaryOp.apply, hn, Binary64.neg_mul]
    | div => simp [signUnary, UnaryOp.apply, BinaryOp.apply, hn, Binary64.neg_div]
    | add | sub | pow | sci => cases h

/-! ### Values -/

namespace Expr

theorem evaluate_unary (op : UnaryOp) (e : Expr) : (unary op e).evaluate = e.evaluate.map op.apply := by
  rw [evaluate]
  cases e.evaluate <;> rfl

theorem evaluate_signs (m n : Nat) (e : Expr) :
    (unary (signUnary m) (unary (signUnary n) e)).evaluate = (unary (signUnary (m + n)) e).evaluate := by
  simp only [evaluate_unary]
  cases e.evaluate with
  | error error => rfl
  | ok x => exact congrArg Except.ok (apply_signUnary_add m n x).symm

/-- What is done to the left operand is done to the result, if the operator lets it through. -/
theorem evaluate_binary_left {op : BinaryOp} {l l' : Expr} {f : Float → Float} (h : l'.evaluate = l.evaluate.map f)
    (hop : ∀ x y, op.apply (f x) y = f (op.apply x y)) (r : Expr) :
    (binary op l' r).evaluate = (binary op l r).evaluate.map f := by
  simp only [evaluate, h]
  cases l.evaluate with
  | error error => rfl
  | ok x =>
    cases r.evaluate with
    | error error => rfl
    | ok y => exact congrArg Except.ok (hop x y)

/-- What is done to the right operand may be left to another operator. -/
theorem evaluate_binary_right {op op' : BinaryOp} {r r' : Expr} {f : Float → Float} (h : r'.evaluate = r.evaluate.map f)
    (hop : ∀ x y, op.apply x y = op'.apply x (f y)) (l : Expr) :
    (binary op' l r').evaluate = (binary op l r).evaluate := by
  simp only [evaluate, h]
  cases l.evaluate with
  | error error => rfl
  | ok x =>
    cases r.evaluate with
    | error error => rfl
    | ok y => exact congrArg Except.ok (hop x y).symm

end Expr

/-! ### Prefix operators before operands -/

/-- A prefix operator at the beginning may be left out. -/
theorem Derives.of_prefix {category : Category} {k : Nat} {t : Token} {op : UnaryOp} {ts : List Token} {e : Expr}
    (h : Derives category k (t :: ts) e) (ht : t.unaryOp? = some op) :
    ¬category.isUnsigned ∧ ∃ k' e', Derives category k' ts e' := by
  generalize hts : t :: ts = tokens at h
  induction h generalizing ts with
  | number | group =>
    obtain ⟨rfl, -⟩ := List.cons.inj hts
    cases ht
  | signed hop operand ih =>
    obtain ⟨-, rfl⟩ := List.cons.inj hts
    exact ⟨by simp [Category.isUnsigned], _, _, operand⟩
  | @unsigned tight k ts e operand ih =>
    refine absurd ?_ (ih hts).1
    cases tight <;> rfl
  | @single level k ts e operand ih =>
    obtain ⟨hfirst, k', e', h'⟩ := ih hts
    refine ⟨?_, k', e', h'.single⟩
    cases level with
    | sum | product => simp [Category.isUnsigned]
    | power => exact hfirst
  | extend hop left right ih _ =>
    obtain ⟨t', ts, rfl⟩ := List.exists_cons_of_ne_nil left.ne_nil
    obtain ⟨rfl, rfl⟩ := List.cons.inj hts
    obtain ⟨hcategory, k', e', h'⟩ := ih rfl
    exact ⟨hcategory, _, _, h'.extend hop right⟩

section

variable {k : Nat} {ts : List Token} {e : Expr}

theorem Derives.signed_behind {tight : Bool} (h : Derives (.signed tight) k ts e) (n : Nat) :
    ∃ k' e', Derives (.signed tight) k' (signToken n :: ts) e' ∧ k ≤ k' ∧ e.depth ≤ e'.depth ∧
      e'.evaluate = e.evaluate.map (signUnary n).apply :=
  ⟨_, _, h.signed (unaryOp?_signToken n), Nat.le_succ _, Nat.le_add_left _ _, Expr.evaluate_unary _ _⟩

/-- A sign before a product belongs to its first factor, and yet it is the sign of the product. -/
theorem Derives.product_behind (h : Derives (.chain .product) k ts e) (n : Nat) :
    ∃ k' e', Derives (.chain .product) k' (signToken n :: ts) e' ∧ k ≤ k' ∧ e.depth ≤ e'.depth ∧
      e'.evaluate = e.evaluate.map (signUnary n).apply := by
  generalize hcategory : Category.chain .product = category at h
  induction h with
  | number | group | signed | unsigned => cases hcategory
  | single operand _ =>
    cases hcategory
    obtain ⟨k', e', h', hk, hdepth, hvalue⟩ := Derives.signed_behind operand n
    exact ⟨k', e', .single h', hk, hdepth, hvalue⟩
  | @extend level k k' ts ts' l r op hop left right ih _ =>
    cases hcategory
    obtain ⟨k'', l', hl, hk, hdepth, hvalue⟩ := ih rfl
    refine ⟨_, _, hl.extend hop right, by omega, ?_, Expr.evaluate_binary_left hvalue (apply_signUnary_left hop n) r⟩
    simp only [Expr.depth]
    omega

end

/-! ### Splitting a sign -/

/-- Both lists have trees or neither has.  Those of the second have the values of those of the first, and are neither
less nested nor less deep. -/
structure IsSplit (ts ts' : List Token) : Prop where
  expand {k : Nat} {e : Expr} (h : Derives (.chain .sum) k ts e) :
    ∃ k' e', Derives (.chain .sum) k' ts' e' ∧ k ≤ k' ∧ e.depth ≤ e'.depth ∧ e'.evaluate = e.evaluate
  collapse {k : Nat} {e : Expr} (h : Derives (.chain .sum) k ts' e) : ∃ k' e', Derives (.chain .sum) k' ts e'

theorem IsSplit.refl (ts : List Token) : IsSplit ts ts :=
  ⟨fun h => ⟨_, _, h, Nat.le_refl _, Nat.le_refl _, rfl⟩, fun h => ⟨_, _, h⟩⟩

theorem IsSplit.trans {ts ts' ts'' : List Token} (h : IsSplit ts ts') (h' : IsSplit ts' ts'') : IsSplit ts ts'' where
  expand hts := by
    obtain ⟨k', e', hts', hk, hdepth, hvalue⟩ := h.expand hts
    obtain ⟨k'', e'', hts'', hk', hdepth', hvalue'⟩ := h'.expand hts'
    exact ⟨k'', e'', hts'', hk.trans hk', hdepth.trans hdepth', hvalue'.trans hvalue⟩
  collapse hts'' := by
    obtain ⟨_, _, hts'⟩ := h'.collapse hts''
    exact h.collapse hts'

section

variable {category : Category} {k m n : Nat} {before after : List Token} {e : Expr}

theorem Occurs.expand_sign (h : Occurs (signToken (m + n)) category k before after e) :
    ∃ k' e', Derives category k' (before ++ signToken m :: signToken n :: after) e' ∧ k ≤ k' ∧ e.depth ≤ e'.depth ∧
      e'.evaluate = e.evaluate := by
  obtain @⟨_, _, d, k, j, outer, outer', _, _, c, _, around, part⟩ := h
  cases part with
  | number ht | leftParen ht | rightParen ht => cases ht
  | @signed tight j op ts e ht operand =>
    obtain rfl : signUnary (m + n) = op := Option.some.inj ((unaryOp?_signToken _).symm.trans ht)
    have hsigns := (operand.signed (unaryOp?_signToken n)).signed (unaryOp?_signToken m)
    refine ⟨max k (d + (j + 1 + 1)), _, ?_, ?_, c.depth_fill_le ?_, c.evaluate_fill (e.evaluate_signs m n)⟩
    · simpa using around.fill hsigns
    · omega
    · simp only [Expr.depth]
      omega
  | @extend level j j' ts ts' l r op ht hop left right =>
    obtain rfl : signBinary (m + n) = op := Token.operator.inj ht
    obtain rfl : level = .sum := hop.symm.trans (level_signBinary _)
    obtain ⟨j'', r', hr, hj, hdepth, hvalue⟩ := Derives.product_behind right n
    have hsum := left.extend (level_signBinary m) hr
    refine ⟨max k (d + max j j''), _, ?_, ?_, c.depth_fill_le ?_,
      c.evaluate_fill (Expr.evaluate_binary_right hvalue (apply_signBinary_add m n) l)⟩
    · simpa [signToken] using around.fill hsum
    · omega
    · simp only [Expr.depth]
      omega

theorem Occurs.collapse_sign (h : Occurs (signToken m) category k before (signToken n :: after) e) :
    ∃ k' e', Derives category k' (before ++ signToken (m + n) :: after) e' := by
  generalize hafter : signToken n :: after = rest at h
  obtain @⟨_, _, d, k, j, outer, outer', _, _, c, _, around, part⟩ := h
  cases part with
  | number ht | leftParen ht | rightParen ht => cases ht
  | @signed tight j op ts e ht operand =>
    obtain ⟨t, ts, rfl⟩ := List.exists_cons_of_ne_nil operand.ne_nil
    obtain ⟨rfl, rfl⟩ := List.cons.inj hafter
    obtain ⟨-, j', e', h'⟩ := operand.of_prefix (unaryOp?_signToken n)
    exact ⟨_, _, by simpa using around.fill (h'.signed (unaryOp?_signToken (m + n)))⟩
  | @extend level j j' ts ts' l r op ht hop left right =>
    obtain rfl : signBinary m = op := Token.operator.inj ht
    obtain rfl : level = .sum := hop.symm.trans (level_signBinary _)
    obtain ⟨t, ts', rfl⟩ := List.exists_cons_of_ne_nil right.ne_nil
    obtain ⟨rfl, rfl⟩ := List.cons.inj hafter
    obtain ⟨-, j', r', hr⟩ := right.of_prefix (unaryOp?_signToken n)
    exact ⟨_, _, by simpa [signToken] using around.fill (left.extend (level_signBinary (m + n)) hr)⟩

end

theorem isSplit_sign (before after : List Token) (m n : Nat) :
    IsSplit (before ++ signToken (m + n) :: after) (before ++ signToken m :: signToken n :: after) :=
  ⟨fun h => h.occurs.expand_sign, fun h => h.occurs.collapse_sign⟩

/-! ### Whole lists -/

namespace IsSplit

variable {ts ts' : List Token} {e : Expr}

/-- A list that is accepted with its signs split is accepted with a tree of the same value. -/
theorem parse_eq_ok (h : IsSplit ts ts') {e' : Expr} (he' : parse ts' = .ok e') :
    ∃ e, parse ts = .ok e ∧ e'.evaluate = e.evaluate := by
  obtain ⟨k', hts', hlimits⟩ := derives_of_parse he'
  obtain ⟨k, e, hts⟩ := h.collapse hts'
  obtain ⟨k'', e'', hts'', hk, hdepth, hvalue⟩ := h.expand hts
  obtain rfl := hts'.unique hts''
  -- the nesting is that of the only tree, too, as the list would else have been refused
  have hk'' : k'' ≤ maxNesting := by
    by_contra hnot
    obtain ⟨p, hp⟩ := hts''.parse_eq_error fun hlimits => hnot hlimits.1
    cases he'.symm.trans hp
  exact ⟨e, hts.parse_eq_ok ⟨hk.trans hk'', hdepth.trans hlimits.2⟩, hvalue⟩

/-- Splitting signs makes a list that is accepted pass a limit, or keeps its value. -/
theorem parse_split (h : IsSplit ts ts') (he : parse ts = .ok e) :
    (∃ e', parse ts' = .ok e' ∧ e'.evaluate = e.evaluate) ∨ ∃ p, parse ts' = .error (.nestingTooDeep p) := by
  obtain ⟨k, hts, -⟩ := derives_of_parse he
  obtain ⟨k', e', hts', -, -, hvalue⟩ := h.expand hts
  by_cases hlimits : k' ≤ maxNesting ∧ e'.depth ≤ maxDepth
  · exact .inl ⟨e', hts'.parse_eq_ok hlimits, hvalue⟩
  · exact .inr (hts'.parse_eq_error hlimits)

end IsSplit

end Calculator
