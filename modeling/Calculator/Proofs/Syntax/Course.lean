import Calculator.Syntax.Cursor

/-!
# Courses

The course of a reading is all that would happen if nothing were refused: the events in their order, and what the
reading comes to.

* a reading that checks its events follows its course up to the first event that is not permitted
  (`run_eq_outcome`, `run_result_eq_error`);
* where an operand has to follow, the course is given by the next token (`course_number` to `course_unexpected`);
* behind a complete operand, frames that bind at least as strongly as the next token are completed one by one
  (`course_complete`), an operator of the right level waits for its right operand (`course_operator`), and a group is
  closed or found unclosed (`course_rightParen`, `course_unclosed`).
-/

namespace Calculator

/-! ### Settling -/

/-- No operator that binds with the given strength or more comes next. -/
def BindsBelow (strength : Nat) (ts : List Token) : Prop :=
  ∀ op, ts.head? = some (.operator op) → op.strength < strength

theorem settle_cons {strength b : Nat} {frame : Frame} {e tree : Expr} (h : strength ≤ frame.strength)
    (hb : frame.build? e = some (b, tree)) (frames : List Frame) :
    settle strength (frame :: frames) e =
      { settle strength frames tree with
        events := .built b tree.depth :: (settle strength frames tree).events } := by
  simp [settle, h, hb]

theorem settle_of_lt {strength : Nat} {frames : List Frame} (h : ∀ frame ∈ frames.head?, frame.strength < strength)
    (e : Expr) : settle strength frames e = ⟨[], frames, e⟩ := by
  cases frames with
  | nil => rfl
  | cons frame frames => simp [settle, Nat.not_le.2 (h frame rfl)]

/-! ### Courses -/

/-- All that happens in a reading that nothing refuses. -/
structure Course where
  events : List Event
  outcome : Outcome

/-- The course with some events before it. -/
def Course.after (events : List Event) (c : Course) : Course :=
  { c with events := events ++ c.events }

@[simp]
theorem Course.after_nil (c : Course) : c.after [] = c :=
  rfl

@[simp]
theorem Course.after_after (a b : List Event) (c : Course) : (c.after b).after a = c.after (a ++ b) := by
  simp [after]

namespace Reading

/-- The course of a reading over the tokens from `position`. -/
def course (s : Setting) (ended : SyntaxError) : Reading → Nat → List Token → Course
  | reading, position, [] =>
    let (events, result) := reading.finish ended position
    ⟨events, result, position⟩
  | reading, position, t :: ts =>
    let turn := reading.turn s position t
    match turn.move with
    | .halt result consumed => ⟨turn.events, result, if consumed then position + 1 else position⟩
    | .next reading => (course s ended reading (position + 1) ts).after turn.events

/-! ### Readings follow their course -/

variable {s : Setting} {ended : SyntaxError}

/-- A reading whose events are all permitted comes to the end of its course. -/
theorem run_eq_outcome {permits : Event → Bool} {reading : Reading} {position : Nat} {ts : List Token}
    (h : checkAll permits (reading.course s ended position ts).events = .ok ()) :
    reading.run permits s ended position ts = (reading.course s ended position ts).outcome := by
  induction ts generalizing reading position with
  | nil =>
    simp only [course] at h ⊢
    simp only [run, h]
    rfl
  | cons t ts ih =>
    unfold course at h ⊢
    unfold run
    cases hm : (reading.turn s position t).move with
    | halt result consumed =>
      simp only [hm] at h ⊢
      simp only [h]
    | next reading' =>
      simp only [hm, Course.after, checkAll_append] at h ⊢
      cases hc : checkAll permits (reading.turn s position t).events with
      | error refusal => simp [hc, bind, Except.bind] at h
      | ok u =>
        simp only [hc, bind, Except.bind] at h ⊢
        exact ih h

/-- A reading with an event that is not permitted is refused there. -/
theorem run_result_eq_error {permits : Event → Bool} {reading : Reading} {position : Nat} {ts : List Token}
    {refusal : SyntaxError} (h : checkAll permits (reading.course s ended position ts).events = .error refusal) :
    (reading.run permits s ended position ts).result = .error refusal := by
  induction ts generalizing reading position with
  | nil =>
    simp only [course] at h
    simp only [run, h]
    rfl
  | cons t ts ih =>
    unfold course at h
    unfold run
    cases hm : (reading.turn s position t).move with
    | halt result consumed =>
      simp only [hm] at h
      simp only [h]
    | next reading' =>
      simp only [hm, Course.after, checkAll_append] at h
      cases hc : checkAll permits (reading.turn s position t).events with
      | error refusal' =>
        simp only [hc, bind, Except.bind] at h ⊢
        rw [Except.error.inj h]
      | ok u =>
        simp only [hc, hm, bind, Except.bind] at h ⊢
        exact ih h

/-! ### Where an operand has to follow -/

theorem course_number (frames : List Frame) (p : Nat) (text : String) (ts : List Token) :
    (wanting frames).course s ended p (.number text :: ts) =
      match readNumber text p with
      | .ok x => (complete frames (.value x)).course s ended (p + 1) ts
      | .error error => ⟨[], .error error, p + 1⟩ := by
  simp only [course, turn]
  cases readNumber text p <;> simp

theorem course_leftParen (frames : List Frame) (p : Nat) (ts : List Token) :
    (wanting frames).course s ended p (.leftParen :: ts) =
      ((wanting (.group :: frames)).course s ended (p + 1) ts).after [.opened p (s.nestingIn frames)] :=
  rfl

theorem course_prefixOp {frames : List Frame} {t : Token} {op : UnaryOp} (h : s.prefixOp? frames t = some op) (p : Nat)
    (ts : List Token) :
    (wanting frames).course s ended p (t :: ts) =
      ((wanting (.unary op p (inExponent frames) :: frames)).course s ended (p + 1) ts).after
        [.opened p (s.nestingIn frames)] := by
  cases t with
  | number text => simp [Setting.prefixOp?, Token.unaryOp?] at h
  | leftParen => simp [Setting.prefixOp?, Token.unaryOp?] at h
  | _ => simp only [course, turn, h]

theorem course_unexpected {frames : List Frame} {t : Token} (hn : ∀ text, t ≠ .number text) (hl : t ≠ .leftParen)
    (h : s.prefixOp? frames t = none) (p : Nat) (ts : List Token) :
    (wanting frames).course s ended p (t :: ts) = ⟨[], .error (.unexpectedToken t p), p⟩ := by
  cases t with
  | number text => exact absurd rfl (hn text)
  | leftParen => exact absurd rfl hl
  | _ => simp [course, turn, h]

/-! ### Behind a complete operand -/

private theorem sum_le_strength {frame : Frame} {e tree : Expr} {b : Nat} (hb : frame.build? e = some (b, tree)) :
    Level.sum.strength ≤ frame.strength := by
  cases frame with
  | group => simp [Frame.build?] at hb
  | unary op q tight => cases tight <;> simp [Level.strength, Frame.strength]
  | binary l op q => exact op.strength_pos

private theorem conclude_cons {frame : Frame} {e tree : Expr} {b : Nat} (hb : frame.build? e = some (b, tree))
    (frames : List Frame) (p : Nat) :
    conclude p (frame :: frames) e =
      (.built b tree.depth :: (conclude p frames tree).1, (conclude p frames tree).2) := by
  simp only [conclude, settle_cons (sum_le_strength hb) hb]
  cases (settle Level.sum.strength frames tree).frames <;> rfl

theorem turn_complete {frame : Frame} {e tree : Expr} {b : Nat} (hb : frame.build? e = some (b, tree))
    {t : Token} (h : ∀ op, t = .operator op → op.strength ≤ frame.strength) (frames : List Frame) (p : Nat) :
    (complete (frame :: frames) e).turn s p t =
      { (complete frames tree).turn s p t with
        events := .built b tree.depth :: ((complete frames tree).turn s p t).events } := by
  cases t with
  | operator op =>
    simp only [turn, settle_cons (h op rfl) hb]
    split <;> rfl
  | rightParen =>
    simp only [turn, settle_cons (sum_le_strength hb) hb]
    cases (settle Level.sum.strength frames tree).frames <;> rfl
  | _ => simp only [turn, conclude_cons hb]

/-- A frame other than a group is completed as soon as no tighter operator follows. -/
theorem course_complete {frame : Frame} {e tree : Expr} {b : Nat} (hb : frame.build? e = some (b, tree))
    {ts : List Token} (h : BindsBelow (frame.strength + 1) ts) (frames : List Frame) (p : Nat) :
    (complete (frame :: frames) e).course s ended p ts =
      ((complete frames tree).course s ended p ts).after [.built b tree.depth] := by
  cases ts with
  | nil => simp [course, finish, conclude_cons hb, Course.after]
  | cons t ts =>
    have ht : ∀ op, t = .operator op → op.strength ≤ frame.strength := by
      rintro op rfl
      exact Nat.lt_succ_iff.1 (h op rfl)
    simp only [course, turn_complete hb ht]
    cases ((complete frames tree).turn s p t).move <;> rfl

theorem course_binary {op : BinaryOp} {ts : List Token} (h : BindsBelow (op.strength + 1) ts) (frames : List Frame)
    (l e : Expr) (b p : Nat) :
    (complete (.binary l op b :: frames) e).course s ended p ts =
      ((complete frames (.binary op l e)).course s ended p ts).after [.built b (Expr.binary op l e).depth] := by
  have hb : (Frame.binary l op b).build? e = some (b, .binary op l e) := rfl
  exact course_complete hb h frames p

theorem course_unary {op : UnaryOp} {b : Nat} {tight : Bool} {ts : List Token}
    (h : BindsBelow ((Frame.unary op b tight).strength + 1) ts) (frames : List Frame) (e : Expr) (p : Nat) :
    (complete (.unary op b tight :: frames) e).course s ended p ts =
      ((complete frames (.unary op e)).course s ended p ts).after [.built b (Expr.unary op e).depth] := by
  have hb : (Frame.unary op b tight).build? e = some (b, .unary op e) := rfl
  exact course_complete hb h frames p

/-- An operator of the level at which the operand stands takes it as its left operand. -/
theorem course_operator {frames : List Frame} {op : BinaryOp} (h : ∀ frame ∈ frames.head?, frame.strength < op.strength)
    (hn : frames = [] → s.level.strength ≤ op.strength) (e : Expr) (p : Nat) (ts : List Token) :
    (complete frames e).course s ended p (.operator op :: ts) =
      (wanting (.binary e op p :: frames)).course s ended (p + 1) ts := by
  have hl : ¬(frames.isEmpty = true ∧ op.strength < s.level.strength) := by
    rintro ⟨hf, hlt⟩
    have := hn (List.isEmpty_iff.1 hf)
    omega
  simp only [course, turn, settle_of_lt h, if_neg hl, Course.after_nil]

theorem course_rightParen (frames : List Frame) (e : Expr) (p : Nat) (ts : List Token) :
    (complete (.group :: frames) e).course s ended p (.rightParen :: ts) =
      (complete frames e).course s ended (p + 1) ts := by
  simp [course, turn, settle, Frame.strength, Level.strength]

/-- What neither continues nor closes a group leaves it unclosed. -/
theorem course_unclosed {ts : List Token} (hop : BindsBelow Level.sum.strength ts) (hr : ts.head? ≠ some .rightParen)
    (frames : List Frame) (e : Expr) (p : Nat) :
    (complete (.group :: frames) e).course s ended p ts = ⟨[], .error (.missingClosingParen p), p⟩ := by
  have hc : conclude p (.group :: frames) e = ([], .error (.missingClosingParen p)) := by
    simp [conclude, settle, Frame.strength, Level.strength]
  cases ts with
  | nil => simp [course, finish, hc]
  | cons t ts =>
    cases t with
    | operator op => exact absurd (hop op rfl) (by have := op.strength_pos; simp only [Level.strength]; omega)
    | rightParen => exact absurd rfl hr
    | _ => simp [course, turn, hc]

/-- An expression with nothing open ends where no operator of its level or a tighter one follows. -/
theorem course_end {ts : List Token} (h : BindsBelow s.level.strength ts) (e : Expr) (p : Nat) :
    (complete [] e).course s ended p ts = ⟨[], .ok e, p⟩ := by
  cases ts with
  | nil => rfl
  | cons t ts =>
    cases t with
    | operator op => simp [course, turn, settle, h op rfl]
    | _ => rfl

end Reading

end Calculator
