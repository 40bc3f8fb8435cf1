import Calculator.Proofs.Syntax.Simulation

/-!
# The limits are exact

A cursor that checks its events reads what a descent reads, as long as the events of the descent are permitted
(`readWith_of_ok`), and is refused at the first that is not (`readWith_of_error`).  So `parse` answers what the descent
through the whole list answers, unless an event passes a limit, and then it names the first such event
(`parse_eq_descent`).
-/

namespace Calculator

/-! ### Events within the limits -/

@[simp]
theorem withinLimits_opened {p n : Nat} : (Event.opened p n).withinLimits ↔ n < maxNesting := by
  simp [Event.withinLimits]

@[simp]
theorem withinLimits_built {p d : Nat} : (Event.built p d).withinLimits ↔ d ≤ maxDepth := by
  simp [Event.withinLimits]

theorem checkAll_eq_ok_iff {permits : Event → Bool} {events : List Event} :
    checkAll permits events = .ok () ↔ ∀ event ∈ events, permits event := by
  unfold checkAll
  cases hfind : events.find? (!permits ·) with
  | none => simpa using hfind
  | some event =>
    refine ⟨fun h => (nomatch h), fun h => ?_⟩
    have hevent := List.find?_some hfind
    simp [h event (List.mem_of_find?_eq_some hfind)] at hevent

theorem checkAll_eq_error {permits : Event → Bool} {events : List Event} {refusal : SyntaxError}
    (h : checkAll permits events = .error refusal) : ∃ p, refusal = .nestingTooDeep p := by
  unfold checkAll at h
  split at h
  · exact ⟨_, (Except.error.inj h).symm⟩
  · cases h

/-! ### Cursors -/

/-- The descent from a cursor. -/
def Cursor.descent (c : Cursor) (level : Level) : Descent :=
  Calculator.descend { c with position := c.tokens.length }.endOfInput (.read (.chain level)) c.nesting c.position
    (c.tokens.drop c.position)

section

variable {permits : Event → Bool} {c : Cursor} {level : Level}

/-- The course from a cursor is the descent. -/
theorem course_eq (c : Cursor) (level : Level) :
    (Reading.wanting []).course ⟨level, c.nesting⟩ { c with position := c.tokens.length }.endOfInput c.position
        (c.tokens.drop c.position) =
      ⟨(c.descent level).events, (c.descent level).result, c.position + (c.descent level).taken⟩ :=
  course_eq_descent c.nesting c.position (c.tokens.drop c.position)

/-- A cursor whose events are all permitted reads what the descent reads. -/
theorem readWith_of_ok (h : checkAll permits (c.descent level).events = .ok ()) :
    c.readWith permits level =
      ((c.descent level).result, { c with position := c.position + (c.descent level).taken }) := by
  have hcourse := course_eq c level
  simp only [Cursor.readWith]
  rw [Reading.run_eq_outcome (by rw [hcourse]; exact h), hcourse]

/-- A cursor with an event that is not permitted is refused for the first such event. -/
theorem readWith_of_error {refusal : SyntaxError} (h : checkAll permits (c.descent level).events = .error refusal) :
    (c.readWith permits level).1 = .error refusal := by
  have hcourse := course_eq c level
  exact Reading.run_result_eq_error (by rw [hcourse]; exact h)

end

/-! ### Whole lists -/

/-- A descent through a whole list: its events, and the tree, unless there is an error or tokens are left. -/
def parseByDescent (tokens : List Token) : List Event × Except SyntaxError Expr :=
  let d := Cursor.descent { tokens } .sum
  (d.events, do
    let tree ← d.result
    match tokens[d.taken]? with
    | some t => .error (.trailingTokens t d.taken)
    | none => .ok tree)

section

variable {permits : Event → Bool} {tokens : List Token}

theorem parseWith_of_ok (h : checkAll permits (parseByDescent tokens).1 = .ok ()) :
    parseWith permits tokens = (parseByDescent tokens).2 := by
  rw [parseWith, readWith_of_ok h, Nat.zero_add]
  rfl

theorem parseWith_of_error {refusal : SyntaxError} (h : checkAll permits (parseByDescent tokens).1 = .error refusal) :
    parseWith permits tokens = .error refusal := by
  simp only [parseWith, readWith_of_error h, bind, Except.bind]

end

/-- The answer to a token list is that of the descent, unless one of its events passes a limit: then the first such
event is named. -/
theorem parse_eq_descent (tokens : List Token) :
    parse tokens =
      match (parseByDescent tokens).1.find? (!·.withinLimits) with
      | some event => .error (.nestingTooDeep event.position)
      | none => (parseByDescent tokens).2 := by
  cases hfind : (parseByDescent tokens).1.find? (!·.withinLimits) with
  | some event => exact parseWith_of_error (by simp only [checkAll, hfind])
  | none => exact parseWith_of_ok (by simp only [checkAll, hfind])

end Calculator
