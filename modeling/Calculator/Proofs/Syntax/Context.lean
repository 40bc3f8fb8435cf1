import Calculator.Proofs.Expr.Context
import Calculator.Proofs.Syntax.Grammar

/-!
# Tokens with a hole

Tokens before and after a hole that something of a category fits make a tree with a hole (`Around`).

* what fits the hole fills it (`Around.fill`);
* every token of what is derived plays a part in one rule, and stands in the hole of all the rest
  (`Derives.occurs`).
-/

namespace Calculator

/-- Tokens before and after something of the category `hole` make something of another category.  `enclosing` groups
and prefix operators enclose the hole, and `nesting` the innermost operand, as if the hole were an operand itself. -/
inductive Around (hole : Category) :
    Category → (enclosing nesting : Nat) → (before after : List Token) → Context → Prop
  | hole : Around hole hole 0 0 [] [] .hole
  | group {d k : Nat} {before after : List Token} {c : Context} (inner : Around hole (.chain .sum) d k before after c) :
    Around hole .primary (d + 1) (k + 1) (.leftParen :: before) (after ++ [.rightParen]) c
  | signed {tight : Bool} {d k : Nat} {t : Token} {op : UnaryOp} {before after : List Token} {c : Context}
    (h : t.unaryOp? = some op) (operand : Around hole (.signed tight) d k before after c) :
    Around hole (.signed tight) (d + 1) (k + 1) (t :: before) after (.unary op c)
  | unsigned {tight : Bool} {d k : Nat} {before after : List Token} {c : Context}
    (operand : Around hole (unsigned tight) d k before after c) : Around hole (.signed tight) d k before after c
  | single {level : Level} {d k : Nat} {before after : List Token} {c : Context}
    (operand : Around hole level.first d k before after c) : Around hole (.chain level) d k before after c
  | left {level : Level} {d k k' : Nat} {before after ts : List Token} {c : Context} {r : Expr} {op : BinaryOp}
    (h : op.level = level) (l : Around hole (.chain level) d k before after c) (right : Derives level.next k' ts r) :
    Around hole (.chain level) d (max k k') before (after ++ .operator op :: ts) (.left op c r)
  | right {level : Level} {d k k' : Nat} {before after ts : List Token} {c : Context} {l : Expr} {op : BinaryOp}
    (h : op.level = level) (left : Derives (.chain level) k ts l) (r : Around hole level.next d k' before after c) :
    Around hole (.chain level) d (max k k') (ts ++ .operator op :: before) after (.right op l c)

/-- What fits the hole fills it. -/
theorem Around.fill {hole category : Category} {d k j : Nat} {before after ts : List Token} {c : Context} {e : Expr}
    (h : Around hole category d k before after c) (he : Derives hole j ts e) :
    Derives category (max k (d + j)) (before ++ ts ++ after) (c.fill e) := by
  induction h with
  | hole => simpa [Context.fill] using he
  | @group d k before after c inner ih =>
    have hk : max (k + 1) (d + 1 + j) = max k (d + j) + 1 := by omega
    rw [hk]
    simpa using Derives.group ih
  | @signed tight d k t op before after c h operand ih =>
    have hk : max (k + 1) (d + 1 + j) = max k (d + j) + 1 := by omega
    rw [hk]
    exact .signed h ih
  | unsigned operand ih => exact .unsigned ih
  | single operand ih => exact .single ih
  | @left level d k k' before after ts' c r op h l right ih =>
    rw [Nat.max_right_comm]
    simpa [Context.fill] using Derives.extend h ih right
  | @right level d k k' before after ts' c l op h left r ih =>
    rw [Nat.max_assoc]
    simpa [Context.fill] using Derives.extend h left ih

/-! ### The part of a token -/

/-- The part that a token plays in a rule: with the tokens before and after it, it makes something of a category. -/
inductive Part (t : Token) : Category → (nesting : Nat) → (before after : List Token) → Expr → Prop
  | number {text : String} {m : Magnitude} (ht : t = .number text) (h : readLiteral text.toList = .ok m) :
    Part t .primary 0 [] [] (.value m.toFloat)
  | leftParen {k : Nat} {ts : List Token} {e : Expr} (ht : t = .leftParen) (inner : Derives (.chain .sum) k ts e) :
    Part t .primary (k + 1) [] (ts ++ [.rightParen]) e
  | rightParen {k : Nat} {ts : List Token} {e : Expr} (ht : t = .rightParen) (inner : Derives (.chain .sum) k ts e) :
    Part t .primary (k + 1) (.leftParen :: ts) [] e
  | signed {tight : Bool} {k : Nat} {op : UnaryOp} {ts : List Token} {e : Expr} (ht : t.unaryOp? = some op)
    (operand : Derives (.signed tight) k ts e) : Part t (.signed tight) (k + 1) [] ts (.unary op e)
  | extend {level : Level} {k k' : Nat} {ts ts' : List Token} {l r : Expr} {op : BinaryOp} (ht : t = .operator op)
    (h : op.level = level) (left : Derives (.chain level) k ts l) (right : Derives level.next k' ts' r) :
    Part t (.chain level) (max k k') ts ts' (.binary op l r)

/-- The token plays a part in the hole of something of a category. -/
inductive Occurs (t : Token) : Category → (nesting : Nat) → (before after : List Token) → Expr → Prop
  | intro {hole category : Category} {d k j : Nat} {outer outer' inner inner' : List Token} {c : Context} {e : Expr}
    (around : Around hole category d k outer outer' c) (part : Part t hole j inner inner' e) :
    Occurs t category (max k (d + j)) (outer ++ inner) (inner' ++ outer') (c.fill e)

namespace Occurs

variable {t : Token} {k : Nat} {before after : List Token} {e : Expr}

theorem of_part {category : Category} (h : Part t category k before after e) :
    Occurs t category k before after e := by
  simpa [Context.fill] using Occurs.intro .hole h

theorem group (h : Occurs t (.chain .sum) k before after e) :
    Occurs t .primary (k + 1) (.leftParen :: before) (after ++ [.rightParen]) e := by
  obtain @⟨_, _, d, k, j, _, _, _, _, _, _, around, part⟩ := h
  have hk : max k (d + j) + 1 = max (k + 1) (d + 1 + j) := by omega
  rw [hk]
  simpa using Occurs.intro around.group part

theorem signed {tight : Bool} {t' : Token} {op : UnaryOp} (ht' : t'.unaryOp? = some op)
    (h : Occurs t (.signed tight) k before after e) :
    Occurs t (.signed tight) (k + 1) (t' :: before) after (.unary op e) := by
  obtain @⟨_, _, d, k, j, _, _, _, _, _, _, around, part⟩ := h
  have hk : max k (d + j) + 1 = max (k + 1) (d + 1 + j) := by omega
  rw [hk]
  exact Occurs.intro (around.signed ht') part

theorem unsigned {tight : Bool} (h : Occurs t (unsigned tight) k before after e) :
    Occurs t (.signed tight) k before after e := by
  obtain ⟨around, part⟩ := h
  exact .intro around.unsigned part

theorem single {level : Level} (h : Occurs t level.first k before after e) :
    Occurs t (.chain level) k before after e := by
  obtain ⟨around, part⟩ := h
  exact .intro around.single part

theorem left {level : Level} {op : BinaryOp} (hop : op.level = level) {k' : Nat} {ts : List Token} {r : Expr}
    (h : Occurs t (.chain level) k before after e) (right : Derives level.next k' ts r) :
    Occurs t (.chain level) (max k k') before (after ++ .operator op :: ts) (.binary op e r) := by
  obtain ⟨around, part⟩ := h
  rw [Nat.max_right_comm]
  simpa [Context.fill] using Occurs.intro (around.left hop right) part

theorem right {level : Level} {op : BinaryOp} (hop : op.level = level) {k' : Nat} {ts : List Token} {l : Expr}
    (left : Derives (.chain level) k' ts l) (h : Occurs t level.next k before after e) :
    Occurs t (.chain level) (max k' k) (ts ++ .operator op :: before) after (.binary op l e) := by
  obtain ⟨around, part⟩ := h
  rw [← Nat.max_assoc]
  simpa [Context.fill] using Occurs.intro (Around.right hop left around) part

end Occurs

/-- Every token of what is derived plays a part in it. -/
theorem Derives.occurs {category : Category} {k : Nat} {before after : List Token} {t : Token} {e : Expr}
    (h : Derives category k (before ++ t :: after) e) : Occurs t category k before after e := by
  generalize hts : before ++ t :: after = ts at h
  induction h generalizing before after with
  | @number text m hm =>
    cases before with
    | nil =>
      obtain ⟨rfl, rfl⟩ := List.cons.inj hts
      exact .of_part (.number rfl hm)
    | cons b before => simp at hts
  | @group k ts e inner ih =>
    cases before with
    | nil =>
      obtain ⟨rfl, rfl⟩ := List.cons.inj hts
      exact .of_part (.leftParen rfl inner)
    | cons b before =>
      obtain ⟨rfl, htail⟩ := List.cons.inj hts
      rcases List.eq_nil_or_concat after with rfl | ⟨after, last, rfl⟩
      · obtain ⟨rfl, hlast⟩ := List.append_inj' htail rfl
        obtain rfl : t = .rightParen := by simpa using hlast
        exact .of_part (.rightParen rfl inner)
      · have hsnoc : (before ++ t :: after) ++ [last] = ts ++ [.rightParen] := by simpa using htail
        obtain ⟨hinner, hlast⟩ := List.append_inj' hsnoc rfl
        obtain rfl : last = .rightParen := by simpa using hlast
        rw [List.concat_eq_append]
        exact (ih hinner).group
  | @signed tight k t' op ts e ht' operand ih =>
    cases before with
    | nil =>
      obtain ⟨rfl, rfl⟩ := List.cons.inj hts
      exact .of_part (.signed ht' operand)
    | cons b before =>
      obtain ⟨rfl, htail⟩ := List.cons.inj hts
      exact (ih htail).signed ht'
  | unsigned operand ih => exact (ih hts).unsigned
  | single operand ih => exact (ih hts).single
  | @extend level k k' ts ts' l r op hop left right ihl ihr =>
    rcases List.append_eq_append_iff.1 hts with ⟨between, rfl, hafter⟩ | ⟨between, rfl, hafter⟩
    · -- the token is the operator or belongs to the left operand
      cases between with
      | nil =>
        obtain ⟨rfl, rfl⟩ := List.cons.inj hafter
        simpa using Occurs.of_part (.extend rfl hop left right)
      | cons b between =>
        obtain ⟨rfl, rfl⟩ := List.cons.inj hafter
        exact (ihl rfl).left hop right
    · cases between with
      | nil =>
        obtain ⟨rfl, rfl⟩ := List.cons.inj hafter
        simpa using Occurs.of_part (.extend rfl hop left right)
      | cons b between =>
        obtain ⟨rfl, rfl⟩ := List.cons.inj hafter
        exact .right hop left (ihr rfl)

end Calculator
