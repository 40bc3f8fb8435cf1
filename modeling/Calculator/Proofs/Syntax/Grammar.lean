import Calculator.Proofs.Syntax.Limits
import Mathlib.Data.Set.Subsingleton

/-!
# The grammar

`Derives` is the grammar, with repetitions folded to the left, and with a count of the groups and prefix operators that
enclose the innermost operand.

* what a descent to a tree takes is derived (`derives_of_descend`);
* what is derived is read by a descent, and its events are within the limits exactly if its count and its depth are
  (`Derives.descend_eq`), so that no token list has two trees (`Derives.unique`);
* so a cursor passes tokens from which what it reads is derived within the limits (`derives_of_read`);
* hence `parse` accepts what the grammar derives within the limits, and nothing else (`parse_eq_ok_iff`).
-/

namespace Calculator

/-- The tokens make something of the category, with the given tree; `nesting` groups and prefix operators enclose the
innermost operand. -/
inductive Derives : Category → (nesting : Nat) → List Token → Expr → Prop
  /-- A number that denotes a value is a primary. -/
  | number {text : String} {m : Magnitude} (h : readLiteral text.toList = .ok m) :
    Derives .primary 0 [.number text] (.value m.toFloat)
  /-- A sum in parentheses is a primary. -/
  | group {k : Nat} {ts : List Token} {e : Expr} (inner : Derives (.chain .sum) k ts e) :
    Derives .primary (k + 1) (.leftParen :: (ts ++ [.rightParen])) e
  /-- Signed operands may follow a prefix operator. -/
  | signed {tight : Bool} {k : Nat} {t : Token} {op : UnaryOp} {ts : List Token} {e : Expr}
    (h : t.unaryOp? = some op) (operand : Derives (.signed tight) k ts e) :
    Derives (.signed tight) (k + 1) (t :: ts) (.unary op e)
  /-- Without a prefix operator, a signed operand is a power, or in an exponent a primary. -/
  | unsigned {tight : Bool} {k : Nat} {ts : List Token} {e : Expr} (operand : Derives (unsigned tight) k ts e) :
    Derives (.signed tight) k ts e
  /-- A single operand is a chain. -/
  | single {level : Level} {k : Nat} {ts : List Token} {e : Expr} (operand : Derives level.first k ts e) :
    Derives (.chain level) k ts e
  /-- A chain may be extended by an operator of its level and a further operand. -/
  | extend {level : Level} {k k' : Nat} {ts ts' : List Token} {l r : Expr} {op : BinaryOp} (h : op.level = level)
    (left : Derives (.chain level) k ts l) (right : Derives level.next k' ts' r) :
    Derives (.chain level) (max k k') (ts ++ .operator op :: ts') (.binary op l r)

theorem Derives.ne_nil {category : Category} {k : Nat} {ts : List Token} {e : Expr} (h : Derives category k ts e) :
    ts ≠ [] := by
  induction h with
  | number | group | signed | extend => simp
  | unsigned _ ih | single _ ih => exact ih

/-! ### What a descent takes is derived -/

theorem readNumber_eq_ok_iff {text : String} {p : Nat} {x : Float} :
    readNumber text p = .ok x ↔ ∃ m, readLiteral text.toList = .ok m ∧ m.toFloat = x := by
  unfold readNumber
  split <;> simp_all

/-- What the tokens taken by a descent to a tree make: something of the category, or a longer chain. -/
def Goal.Yields : Goal → (taken : List Token) → Expr → Prop
  | .read category, taken, e => ∃ k, Derives category k taken e
  | .extend level left, taken, e =>
    ∀ k ts, Derives (.chain level) k ts left → ∃ k', Derives (.chain level) k' (ts ++ taken) e

theorem derives_of_descend {ended : SyntaxError} {goal : Goal} {n p : Nat} {ts : List Token} {e : Expr}
    (h : (descend ended goal n p ts).result = .ok e) : goal.Yields (ts.take (descend ended goal n p ts).taken) e := by
  fun_induction descend ended goal n p ts generalizing e with
  | case1 level n p ts ihFirst ihExtend =>
    obtain ⟨left, hleft, hrest, htaken⟩ := Descent.ok_of_andThen h
    obtain ⟨k, hfirst⟩ := ihFirst hleft
    rw [htaken, List.take_add]
    exact ihExtend left _ hrest k _ (.single hfirst)
  | case2 left n p op ts ihNext ihExtend =>
    intro k before hbefore
    obtain ⟨right, hright, hrest, htaken⟩ := Descent.ok_of_andThen h
    obtain ⟨k', hnext⟩ := ihNext hright
    rw [Descent.taken_behind, List.take_succ_cons, htaken, List.take_add, ← List.cons_append, ← List.append_assoc]
    exact ihExtend right _ hrest _ _ (.extend rfl hbefore hnext)
  | case3 | case4 =>
    intro k before hbefore
    cases h
    exact ⟨k, by simpa [Descent.done] using hbefore⟩
  | case5 tight n p ih | case7 tight n p t ts hop ih =>
    obtain ⟨k, hk⟩ := ih h
    exact ⟨k, .unsigned hk⟩
  | case6 tight n p t ts op hop ih =>
    obtain ⟨inner, hinner, hdone, htaken⟩ := Descent.ok_of_andThen h
    obtain ⟨k, hk⟩ := ih hinner
    cases hdone
    rw [Descent.taken_after, Descent.taken_behind, htaken, List.take_succ_cons]
    exact ⟨k + 1, .signed hop hk⟩
  | case8 n p text ts x hx =>
    obtain ⟨m, hm, rfl⟩ := readNumber_eq_ok_iff.1 hx
    cases h
    exact ⟨0, .number hm⟩
  | case10 n p ts ih =>
    obtain ⟨inner, hinner, hclose, htaken⟩ := Descent.ok_of_andThen h
    obtain ⟨k, hk⟩ := ih hinner
    rw [Descent.taken_after, Descent.taken_behind, htaken, List.take_succ_cons, List.take_add]
    split at hclose
    · rename_i tail hdrop
      cases hclose
      rw [hdrop]
      exact ⟨k + 1, .group hk⟩
    · cases hclose
  | case9 | case11 | case12 => cases h

/-! ### What is derived is read -/

theorem bindsBelow_mono {m n : Nat} {ts : List Token} (h : BindsBelow m ts) (hmn : m ≤ n) : BindsBelow n ts :=
  fun op hop => Nat.lt_of_lt_of_le (h op hop) hmn

/-- Whether something of the category is complete before these tokens: no operator follows that binds more strongly. -/
def Category.IsCompleteBefore : Category → List Token → Prop
  | chain level, rest => BindsBelow (level.strength + 1) rest
  | category, rest => BindsBelow category.strength rest

theorem isCompleteBefore_operand {level : Level} {rest : List Token}
    (h : BindsBelow (level.strength + 1) rest) :
    level.first.IsCompleteBefore rest ∧ level.next.IsCompleteBefore rest := by
  cases level with
  | sum => exact ⟨bindsBelow_mono h (by decide), bindsBelow_mono h (by decide)⟩
  | product => exact ⟨bindsBelow_mono h (by decide), bindsBelow_mono h (by decide)⟩
  | power => exact ⟨bindsBelow_mono h (by decide), bindsBelow_mono h (by decide)⟩

theorem isCompleteBefore_unsigned {tight : Bool} {rest : List Token}
    (h : (Category.signed tight).IsCompleteBefore rest) : (unsigned tight).IsCompleteBefore rest := by
  cases tight with
  | false => exact bindsBelow_mono h (by decide)
  | true => exact h

/-- Whether operands inside `nesting` others may be enclosed `k` times more, and a tree may be as deep as this one. -/
def FitsLimits (nesting k : Nat) (e : Expr) : Prop :=
  (k = 0 ∨ nesting + k ≤ maxNesting) ∧ e.depth ≤ maxDepth

/-- Behind any frames that it can follow, the course reads what is derived, and goes on with its tree as the operand. -/
theorem Derives.course_eq {category : Category} {k : Nat} {ts : List Token} {e : Expr} (h : Derives category k ts e)
    (ended : SyntaxError) {s : Setting} {frames : List Frame} {p : Nat} {rest : List Token}
    (hs : s.Admits frames category) (hrest : category.IsCompleteBefore rest) :
    ∃ events, (Reading.wanting frames).course s ended p (ts ++ rest) =
        ((Reading.complete frames e).course s ended (p + ts.length) rest).after events ∧
      ((∀ event ∈ events, event.withinLimits) ↔ FitsLimits (s.nestingIn frames) k e) := by
  induction h generalizing frames p rest with
  | @number text m hm =>
    have hx := readNumber_eq_ok_iff (p := p).2 ⟨m, hm, rfl⟩
    refine ⟨[], ?_, by simp [FitsLimits, Expr.depth, maxDepth]⟩
    rw [List.singleton_append, Reading.course_number, hx]
    rfl
  | @group k ts e inner ih =>
    have hclose : (Category.chain .sum).IsCompleteBefore (.rightParen :: rest) := by
      intro op hop
      cases hop
    obtain ⟨events, hcourse, hevents⟩ := ih (p := p + 1) admits_group hclose
    refine ⟨.opened p (s.nestingIn frames) :: events, ?_, ?_⟩
    · rw [List.cons_append, List.append_assoc, List.singleton_append, Reading.course_leftParen, hcourse,
        Reading.course_rightParen, Course.after_after, List.singleton_append, List.length_cons, List.length_append]
      congr 2
      simp only [List.length_singleton]
      omega
    · rw [List.forall_mem_cons, hevents, nestingIn_group]
      simp only [FitsLimits, withinLimits_opened]
      omega
  | @signed tight k t op ts e hop operand ih =>
    obtain ⟨hexp, hlevel⟩ := hs
    have hprefix : s.prefixOp? frames t = some op := prefixOp?_eq hlevel hop
    obtain ⟨events, hcourse, hevents⟩ := ih (p := p + 1) (admits_signed op p tight) hrest
    have hbelow : BindsBelow ((Frame.unary op p tight).strength + 1) rest := strength_signed op p tight ▸ hrest
    refine ⟨.opened p (s.nestingIn frames) :: events ++ [.built p (Expr.unary op e).depth], ?_, ?_⟩
    · rw [List.cons_append, Reading.course_prefixOp hprefix, hexp, hcourse, Reading.course_unary hbelow,
        Course.after_after, Course.after_after, List.length_cons, Nat.add_assoc, Nat.add_comm 1]
      rfl
    · rw [List.forall_mem_append, List.forall_mem_cons, List.forall_mem_singleton, hevents, nestingIn_unary]
      simp only [FitsLimits, withinLimits_opened, withinLimits_built, Expr.depth]
      omega
  | unsigned operand ih => exact ih hs.unsigned (isCompleteBefore_unsigned hrest)
  | single operand ih => exact ih hs.first (isCompleteBefore_operand hrest).1
  | @extend level k k' ts ts' l r op hop left right ihl ihr =>
    subst hop
    -- behind the left chain comes an operator of its own level, which completes it
    have hop : (Category.chain op.level).IsCompleteBefore (.operator op :: (ts' ++ rest)) := by
      intro op' hhead
      obtain rfl : op = op' := by simpa using hhead
      exact Nat.lt_succ_self _
    obtain ⟨events, hcourse, hevents⟩ := ihl (p := p) hs hop
    obtain ⟨events', hcourse', hevents'⟩ :=
      ihr (p := p + ts.length + 1) (admits_next l op (p + ts.length)) (isCompleteBefore_operand hrest).2
    refine ⟨events ++ events' ++ [.built (p + ts.length) (Expr.binary op l r).depth], ?_, ?_⟩
    · rw [List.append_assoc, List.cons_append, hcourse, Reading.course_operator hs.1 hs.2, hcourse',
        Reading.course_binary hrest, Course.after_after, Course.after_after, List.length_append, List.length_cons]
      congr 2
      omega
    · rw [List.forall_mem_append, List.forall_mem_append, List.forall_mem_singleton, hevents, hevents',
        nestingIn_binary]
      simp only [FitsLimits, withinLimits_built, Expr.depth]
      omega

/-- A chain that no operator of its level or a tighter one follows is read by a descent. -/
theorem Derives.descend_eq {level : Level} {k : Nat} {ts rest : List Token} {e : Expr}
    (h : Derives (.chain level) k ts e) (hrest : BindsBelow level.strength rest) (ended : SyntaxError) (n p : Nat) :
    ∃ events, descend ended (.read (.chain level)) n p (ts ++ rest) = ⟨events, .ok e, ts.length⟩ ∧
      ((∀ event ∈ events, event.withinLimits) ↔ FitsLimits n k e) := by
  have hs : (⟨level, n⟩ : Setting).Admits [] (.chain level) := ⟨by simp, fun _ => Nat.le_refl _⟩
  obtain ⟨events, hcourse, hevents⟩ :=
    h.course_eq ended (p := p) hs (bindsBelow_mono hrest (Nat.le_succ _))
  refine ⟨events, ?_, hevents⟩
  rw [Reading.course_end hrest, course_eq_descent] at hcourse
  generalize descend ended (.read (.chain level)) n p (ts ++ rest) = d at hcourse ⊢
  simp only [Course.after, List.append_nil, Course.mk.injEq, Outcome.mk.injEq, Nat.add_left_cancel_iff] at hcourse
  obtain ⟨rfl, hresult, htaken⟩ := hcourse
  rw [← hresult, ← htaken]

/-- No token list makes a chain in two ways. -/
theorem Derives.unique {level : Level} {k k' : Nat} {ts : List Token} {e e' : Expr}
    (h : Derives (.chain level) k ts e) (h' : Derives (.chain level) k' ts e') : e = e' := by
  have hrest : BindsBelow level.strength [] := fun op hop => nomatch hop
  obtain ⟨events, hd, -⟩ := h.descend_eq hrest .emptyExpression 0 0
  obtain ⟨events', hd', -⟩ := h'.descend_eq hrest .emptyExpression 0 0
  rw [hd] at hd'
  simpa using congrArg Descent.result hd'

/-! ### Cursors -/

/-- What a cursor reads is derived, within the limits, from the tokens that it passes. -/
theorem derives_of_read {c : Cursor} {level : Level} {e : Expr} (h : (c.read level).1 = .ok e) :
    ∃ k ts, ts <+: c.tokens.drop c.position ∧ (c.read level).2.position = c.position + ts.length ∧
      Derives (.chain level) k ts e ∧ FitsLimits c.nesting k e := by
  cases hcheck : checkAll Event.withinLimits (c.descent level).events with
  | error refusal =>
    rw [Cursor.read, readWith_of_error hcheck] at h
    cases h
  | ok =>
    rw [Cursor.read, readWith_of_ok hcheck] at h ⊢
    obtain ⟨k, hk⟩ : (Goal.read (.chain level)).Yields _ e := derives_of_descend h
    have hrest : BindsBelow level.strength _ := descend_endsAt h
    -- the tokens taken and those left over are all there are, so the descent is the one that was checked
    obtain ⟨events, hd, hevents⟩ := hk.descend_eq hrest _ c.nesting c.position
    rw [List.take_append_drop] at hd
    refine ⟨k, _, List.take_prefix _ _, ?_, hk, ?_⟩
    · exact congrArg (fun d : Descent => c.position + d.taken) hd
    · rw [← hevents, ← checkAll_eq_ok_iff, ← hcheck]
      exact congrArg (fun d : Descent => checkAll Event.withinLimits d.events) hd.symm

/-! ### Whole lists -/

/-- What is derived from a whole list is what the descent takes, all of it. -/
theorem Derives.descent_eq {k : Nat} {tokens : List Token} {tree : Expr} (h : Derives (.chain .sum) k tokens tree) :
    ∃ events, Cursor.descent { tokens } .sum = ⟨events, .ok tree, tokens.length⟩ ∧
      ((∀ event ∈ events, event.withinLimits) ↔ FitsLimits 0 k tree) := by
  have hrest : BindsBelow Level.sum.strength [] := fun op hop => nomatch hop
  have hd := h.descend_eq hrest (Cursor.endOfInput ⟨tokens, tokens.length, 0⟩) 0 0
  rwa [List.append_nil] at hd

theorem parseByDescent_eq_ok_iff {tokens : List Token} {tree : Expr} :
    (parseByDescent tokens).2 = .ok tree ↔ ∃ k, Derives (.chain .sum) k tokens tree := by
  constructor
  · intro h
    simp only [parseByDescent] at h
    cases hd : (Cursor.descent { tokens } .sum).result with
    | error error =>
      rw [hd] at h
      cases h
    | ok e =>
      have hyields : (Goal.read (.chain .sum)).Yields (tokens.take (Cursor.descent { tokens } .sum).taken) e :=
        derives_of_descend hd
      obtain ⟨k, hk⟩ := hyields
      simp only [hd, bind, Except.bind] at h
      split at h
      · cases h
      · rename_i hend
        cases h
        rw [List.take_of_length_le (List.getElem?_eq_none_iff.1 hend)] at hk
        exact ⟨k, hk⟩
  · rintro ⟨k, h⟩
    obtain ⟨events, hd, -⟩ := h.descent_eq
    simp only [parseByDescent, hd, List.getElem?_eq_none (Nat.le_refl _)]
    rfl

/-- What is derived from a whole list is within the limits exactly if the events of the descent are. -/
theorem Derives.checkAll_iff {k : Nat} {tokens : List Token} {tree : Expr} (h : Derives (.chain .sum) k tokens tree) :
    checkAll Event.withinLimits (parseByDescent tokens).1 = .ok () ↔ k ≤ maxNesting ∧ tree.depth ≤ maxDepth := by
  obtain ⟨events, hd, hevents⟩ := h.descent_eq
  simp only [parseByDescent, hd, checkAll_eq_ok_iff]
  rw [hevents]
  simp only [FitsLimits]
  omega

/-- What is accepted is derived within the limits. -/
theorem derives_of_parse {tokens : List Token} {tree : Expr} (h : parse tokens = .ok tree) :
    ∃ k, Derives (.chain .sum) k tokens tree ∧ k ≤ maxNesting ∧ tree.depth ≤ maxDepth := by
  cases hcheck : checkAll Event.withinLimits (parseByDescent tokens).1 with
  | error refusal =>
    rw [parse, parseWith_of_error hcheck] at h
    cases h
  | ok =>
    rw [parse, parseWith_of_ok hcheck] at h
    obtain ⟨k, hk⟩ := parseByDescent_eq_ok_iff.1 h
    exact ⟨k, hk, hk.checkAll_iff.1 hcheck⟩

/-- What is derived within the limits is accepted. -/
theorem Derives.parse_eq_ok {k : Nat} {tokens : List Token} {tree : Expr} (h : Derives (.chain .sum) k tokens tree)
    (hlimits : k ≤ maxNesting ∧ tree.depth ≤ maxDepth) : parse tokens = .ok tree := by
  rw [parse, parseWith_of_ok (h.checkAll_iff.2 hlimits)]
  exact parseByDescent_eq_ok_iff.2 ⟨k, h⟩

/-- What is derived, but not within the limits, is refused for a limit. -/
theorem Derives.parse_eq_error {k : Nat} {tokens : List Token} {tree : Expr} (h : Derives (.chain .sum) k tokens tree)
    (hlimits : ¬(k ≤ maxNesting ∧ tree.depth ≤ maxDepth)) : ∃ p, parse tokens = .error (.nestingTooDeep p) := by
  cases hcheck : checkAll Event.withinLimits (parseByDescent tokens).1 with
  | error refusal =>
    obtain ⟨p, rfl⟩ := checkAll_eq_error hcheck
    exact ⟨p, parseWith_of_error hcheck⟩
  | ok => exact absurd (h.checkAll_iff.1 hcheck) hlimits

/-- A token list is accepted with a tree exactly if the grammar derives that tree, with every operand enclosed by no
more groups and prefix operators than the limit, and the tree no deeper than the limit; and the grammar derives no two
trees. -/
theorem parse_eq_ok_iff (tokens : List Token) :
    (∀ tree, parse tokens = .ok tree ↔
      ∃ k, Derives (.chain .sum) k tokens tree ∧ k ≤ maxNesting ∧ tree.depth ≤ maxDepth) ∧
    {tree | ∃ k, Derives (.chain .sum) k tokens tree}.Subsingleton := by
  refine ⟨fun tree => ?_, fun tree ⟨k, h⟩ tree' ⟨k', h'⟩ => h.unique h'⟩
  cases hcheck : checkAll Event.withinLimits (parseByDescent tokens).1 with
  | error refusal =>
    rw [parse, parseWith_of_error hcheck]
    refine ⟨fun h => (nomatch h), fun ⟨k, h, hlimits⟩ => ?_⟩
    rw [h.checkAll_iff.2 hlimits] at hcheck
    cases hcheck
  | ok =>
    rw [parse, parseWith_of_ok hcheck, parseByDescent_eq_ok_iff]
    exact ⟨fun ⟨k, h⟩ => ⟨k, h, h.checkAll_iff.1 hcheck⟩, fun ⟨k, h, _⟩ => ⟨k, h⟩⟩

end Calculator
