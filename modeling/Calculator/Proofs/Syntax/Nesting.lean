import Calculator.Proofs.Syntax.Context

/-!
# Nesting

`nestings` lists how many groups and prefix operators enclose each number of a token list.

* of what is derived, the greatest of these numbers is the nesting that the grammar counts (`Derives.nestings_eq`);
* a number in a hole is enclosed by the groups and prefix operators that enclose the hole (`Around.nestings_eq`).
-/

namespace Calculator

/-- Whether the token is a number. -/
def Token.isNumber : Token → Bool
  | number _ => true
  | _ => false

theorem isNumber_of_unaryOp? {t : Token} {op : UnaryOp} (h : t.unaryOp? = some op) : t.isNumber = false := by
  cases t <;> first | rfl | simp [Token.unaryOp?] at h

/-! ### Along a reading -/

namespace Reading

/-- How many groups and prefix operators enclose the number, if the token is one that is read as an operand. -/
def nestingAt (s : Setting) : Reading → Token → List Nat
  | wanting frames, .number _ => [s.nestingIn frames]
  | _, _ => []

/-- How many groups and prefix operators enclose each number that is read, from left to right. -/
def nestings (s : Setting) : Reading → Nat → List Token → List Nat
  | _, _, [] => []
  | reading, position, t :: ts =>
    reading.nestingAt s t ++
      match (reading.turn s position t).move with
      | .next reading => nestings s reading (position + 1) ts
      | .halt _ _ => []

variable {s : Setting} {frames : List Frame}

theorem nestings_number {text : String} {p : Nat} {x : Float} (h : readNumber text p = .ok x) (ts : List Token) :
    (wanting frames).nestings s p (.number text :: ts) =
      s.nestingIn frames :: (complete frames (.value x)).nestings s (p + 1) ts := by
  simp only [nestings, turn, h, nestingAt, List.singleton_append]

theorem nestings_leftParen (p : Nat) (ts : List Token) :
    (wanting frames).nestings s p (.leftParen :: ts) = (wanting (.group :: frames)).nestings s (p + 1) ts :=
  rfl

theorem nestings_prefixOp {t : Token} {op : UnaryOp} (h : s.prefixOp? frames t = some op) (p : Nat) (ts : List Token) :
    (wanting frames).nestings s p (t :: ts) =
      (wanting (.unary op p (inExponent frames) :: frames)).nestings s (p + 1) ts := by
  cases t with
  | number text => simp [Setting.prefixOp?, Token.unaryOp?] at h
  | leftParen => simp [Setting.prefixOp?, Token.unaryOp?] at h
  | _ => simp only [nestings, turn, h, nestingAt, List.nil_append]

theorem nestings_complete {frame : Frame} {e tree : Expr} {b : Nat} (hb : frame.build? e = some (b, tree))
    {ts : List Token} (h : BindsBelow (frame.strength + 1) ts) (p : Nat) :
    (complete (frame :: frames) e).nestings s p ts = (complete frames tree).nestings s p ts := by
  cases ts with
  | nil => rfl
  | cons t ts =>
    have ht : ∀ op, t = .operator op → op.strength ≤ frame.strength := by
      rintro op rfl
      exact Nat.lt_succ_iff.1 (h op rfl)
    simp only [nestings, turn_complete hb ht, nestingAt]

theorem nestings_operator {op : BinaryOp} (h : ∀ frame ∈ frames.head?, frame.strength < op.strength)
    (hn : frames = [] → s.level.strength ≤ op.strength) (e : Expr) (p : Nat) (ts : List Token) :
    (complete frames e).nestings s p (.operator op :: ts) =
      (wanting (.binary e op p :: frames)).nestings s (p + 1) ts := by
  have hl : ¬(frames.isEmpty = true ∧ op.strength < s.level.strength) := by
    rintro ⟨hf, hlt⟩
    have := hn (List.isEmpty_iff.1 hf)
    omega
  simp only [nestings, turn, settle_of_lt h, if_neg hl, nestingAt, List.nil_append]

theorem nestings_rightParen (e : Expr) (p : Nat) (ts : List Token) :
    (complete (.group :: frames) e).nestings s p (.rightParen :: ts) = (complete frames e).nestings s (p + 1) ts := by
  simp [nestings, turn, settle, Frame.strength, Level.strength, nestingAt]

end Reading

/-- How many groups and prefix operators enclose each number of the list, from left to right. -/
def nestings (tokens : List Token) : List Nat :=
  (Reading.wanting []).nestings ⟨.sum, 0⟩ 0 tokens

/-- The greatest of some numbers. -/
def greatest (ns : List Nat) : Nat :=
  ns.foldr max 0

@[simp]
theorem greatest_append (ms ns : List Nat) : greatest (ms ++ ns) = max (greatest ms) (greatest ns) := by
  induction ms with
  | nil => simp [greatest]
  | cons m ms ih =>
    have := congrArg (max m) ih
    rwa [← Nat.max_assoc] at this

/-! ### Of what is derived -/

theorem Derives.length_leaves {category : Category} {k : Nat} {ts : List Token} {e : Expr}
    (h : Derives category k ts e) : e.leaves.length = ts.countP Token.isNumber := by
  induction h with
  | number h => rfl
  | group inner ih => simpa [Token.isNumber] using ih
  | @signed tight k t op ts e h operand ih =>
    simpa [Expr.leaves, isNumber_of_unaryOp? h] using ih
  | unsigned operand ih | single operand ih => exact ih
  | extend h left right ihl ihr => simp [Expr.leaves, ihl, ihr, Token.isNumber]

section

variable {category : Category} {k : Nat} {s : Setting} {frames : List Frame}

/-- Behind any frames that it can follow, the numbers of what is derived are enclosed at most by the nesting counted in
the grammar and what encloses the whole, and one of them by as many. -/
theorem Derives.nestings_eq {ts : List Token} {e : Expr} (h : Derives category k ts e) {p : Nat} {rest : List Token}
    (hs : s.Admits frames category) (hrest : category.IsCompleteBefore rest) :
    ∃ ns, (Reading.wanting frames).nestings s p (ts ++ rest) =
        ns ++ (Reading.complete frames e).nestings s (p + ts.length) rest ∧
      greatest ns = s.nestingIn frames + k ∧ ns.length = ts.countP Token.isNumber := by
  induction h generalizing frames p rest with
  | @number text m hm =>
    have hx := readNumber_eq_ok_iff (p := p).2 ⟨m, hm, rfl⟩
    refine ⟨[s.nestingIn frames], ?_, by simp [greatest], rfl⟩
    exact Reading.nestings_number hx rest
  | @group k ts e inner ih =>
    have hclose : (Category.chain .sum).IsCompleteBefore (.rightParen :: rest) := by
      intro op hop
      cases hop
    obtain ⟨ns, hns, hmax, hlength⟩ := ih (p := p + 1) admits_group hclose
    refine ⟨ns, ?_, ?_, ?_⟩
    · rw [List.cons_append, List.append_assoc, List.singleton_append, Reading.nestings_leftParen, hns,
        Reading.nestings_rightParen, List.length_cons, List.length_append]
      congr 2
      simp only [List.length_singleton]
      omega
    · rw [hmax, nestingIn_group]
      omega
    · simpa [Token.isNumber] using hlength
  | @signed tight k t op ts e hop operand ih =>
    obtain ⟨hexp, hlevel⟩ := hs
    have hprefix : s.prefixOp? frames t = some op := prefixOp?_eq hlevel hop
    have hbelow : BindsBelow ((Frame.unary op p tight).strength + 1) rest := strength_signed op p tight ▸ hrest
    obtain ⟨ns, hns, hmax, hlength⟩ := ih (p := p + 1) (admits_signed op p tight) hrest
    have hb : (Frame.unary op p tight).build? e = some (p, .unary op e) := rfl
    refine ⟨ns, ?_, ?_, ?_⟩
    · rw [List.cons_append, Reading.nestings_prefixOp hprefix, hexp, hns, Reading.nestings_complete hb hbelow,
        List.length_cons, Nat.add_assoc, Nat.add_comm 1]
    · rw [hmax, nestingIn_unary]
      omega
    · rwa [List.countP_cons_of_neg (by simp [isNumber_of_unaryOp? hop])]
  | unsigned operand ih => exact ih hs.unsigned (isCompleteBefore_unsigned hrest)
  | single operand ih => exact ih hs.first (isCompleteBefore_operand hrest).1
  | @extend level k k' ts ts' l r op hop left right ihl ihr =>
    subst hop
    have hop : (Category.chain op.level).IsCompleteBefore (.operator op :: (ts' ++ rest)) := by
      intro op' hhead
      obtain rfl : op = op' := by simpa using hhead
      exact Nat.lt_succ_self _
    obtain ⟨ns, hns, hmax, hlength⟩ := ihl (p := p) hs hop
    obtain ⟨ns', hns', hmax', hlength'⟩ :=
      ihr (p := p + ts.length + 1) (admits_next l op (p + ts.length)) (isCompleteBefore_operand hrest).2
    have hb : (Frame.binary l op (p + ts.length)).build? r = some (p + ts.length, .binary op l r) := rfl
    refine ⟨ns ++ ns', ?_, ?_, ?_⟩
    · rw [List.append_assoc, List.cons_append, hns, Reading.nestings_operator hs.1 hs.2, hns',
        Reading.nestings_complete hb hrest, List.length_append, List.length_cons, List.append_assoc]
      congr 3
      omega
    · rw [greatest_append, hmax, hmax', nestingIn_binary]
      omega
    · simp [hlength, hlength', Token.isNumber]

/-- The numbers of a whole list that is derived are enclosed at most by the nesting counted in the grammar. -/
theorem Derives.greatest_nestings {ts : List Token} {e : Expr} (h : Derives (.chain .sum) k ts e) :
    greatest (nestings ts) = k := by
  have hs : (⟨.sum, 0⟩ : Setting).Admits [] (.chain .sum) := ⟨by simp, fun _ => Nat.le_refl _⟩
  have hrest : (Category.chain .sum).IsCompleteBefore [] := fun op hop => nomatch hop
  obtain ⟨ns, hns, hmax, -⟩ := h.nestings_eq (p := 0) hs hrest
  rw [List.append_nil] at hns
  rw [nestings, hns, Reading.nestings, List.append_nil, hmax]
  simp [Setting.nestingIn]

/-! ### Around a hole -/

theorem Around.leavesBefore_eq {hole : Category} {d : Nat} {before after : List Token} {c : Context}
    (h : Around hole category d k before after c) : c.leavesBefore = before.countP Token.isNumber := by
  induction h with
  | hole => rfl
  | group inner ih => simpa [Token.isNumber] using ih
  | signed h operand ih => simpa [Context.leavesBefore, isNumber_of_unaryOp? h] using ih
  | unsigned operand ih | single operand ih | left h l right ih => exact ih
  | right h left r ih => simp [Context.leavesBefore, ih, left.length_leaves, Token.isNumber]

/-- Behind any frames, reading the tokens before a hole leads to where the hole is enclosed by as many groups and prefix
operators more. -/
theorem Around.nestings_eq {hole : Category} {d : Nat} {before after : List Token} {c : Context}
    (h : Around hole category d k before after c) (hs : s.Admits frames category) (p : Nat) (rest : List Token) :
    ∃ inner ns, (Reading.wanting frames).nestings s p (before ++ rest) =
        ns ++ (Reading.wanting inner).nestings s (p + before.length) rest ∧
      s.nestingIn inner = s.nestingIn frames + d ∧ ns.length = before.countP Token.isNumber := by
  induction h generalizing frames p with
  | hole => exact ⟨frames, [], rfl, rfl, rfl⟩
  | group h ih =>
    have hgroup : s.Admits (.group :: frames) (.chain .sum) := admits_group
    obtain ⟨inner, ns, hns, hinner, hlength⟩ := ih hgroup (p + 1)
    refine ⟨inner, ns, ?_, ?_, ?_⟩
    · rw [List.cons_append, Reading.nestings_leftParen, hns, List.length_cons, Nat.add_assoc, Nat.add_comm 1]
    · rw [hinner, nestingIn_group]
      omega
    · simpa [Token.isNumber] using hlength
  | @signed tight d k t op before after c hop operand ih =>
    obtain ⟨hexp, hlevel⟩ := hs
    have hprefix : s.prefixOp? frames t = some op := prefixOp?_eq hlevel hop
    have hsigned : s.Admits (.unary op p tight :: frames) (.signed tight) := admits_signed op p tight
    obtain ⟨inner, ns, hns, hinner, hlength⟩ := ih hsigned (p + 1)
    refine ⟨inner, ns, ?_, ?_, ?_⟩
    · rw [List.cons_append, Reading.nestings_prefixOp hprefix, hexp, hns, List.length_cons, Nat.add_assoc,
        Nat.add_comm 1]
    · rw [hinner, nestingIn_unary]
      omega
    · simpa [isNumber_of_unaryOp? hop] using hlength
  | unsigned operand ih => exact ih hs.unsigned p
  | single operand ih => exact ih hs.first p
  | left h l right ih => exact ih hs p
  | @right level d k k' before after ts c l op hop left r ih =>
    subst hop
    have hop : (Category.chain op.level).IsCompleteBefore (.operator op :: (before ++ rest)) := by
      intro op' hhead
      obtain rfl : op = op' := by simpa using hhead
      exact Nat.lt_succ_self _
    -- the left operand is read in full on the way to the hole
    obtain ⟨ms, hms, -, hlength⟩ := left.nestings_eq (p := p) hs hop
    have hnext : s.Admits (.binary l op (p + ts.length) :: frames) op.level.next := admits_next l op (p + ts.length)
    obtain ⟨inner, ns, hns, hinner, hlength'⟩ := ih hnext (p + ts.length + 1)
    refine ⟨inner, ms ++ ns, ?_, ?_, ?_⟩
    · rw [List.append_assoc, List.cons_append, hms, Reading.nestings_operator hs.1 hs.2, hns, List.append_assoc,
        List.length_append, List.length_cons]
      congr 3
      omega
    · rw [hinner, nestingIn_binary]
    · simp [hlength, hlength', Token.isNumber]

end

end Calculator
