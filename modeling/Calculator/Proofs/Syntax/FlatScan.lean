import Calculator.Proofs.Syntax.Limits

/-!
# Rejections of a flat scan

Whether a token list is an expression, and what is wrong with it if it is none, shows without a tree: it is enough to
know whether an operand has to follow, and how many groups are open.  `flatScan` goes through a list with no more than
that.

A reading agrees with the scan at every token (`course_verdict`): whatever frames are open, some of them or an outer
level takes each operator behind a complete operand, and only groups keep an expression from ending.  So the answer of
`parse` is that of the scan, limits aside (`parse_map_eq_flatScan`).
-/

namespace Calculator

/-- What a scan knows about the tokens before: whether an operand has to follow or one is complete. -/
inductive ScanState
  | wanted
  | complete
  deriving DecidableEq, Repr

/-- The error at the end of a list where an operand has to follow. -/
def errorAtEnd (tokens : List Token) : SyntaxError :=
  match tokens.getLast? with
  | some t => .incompleteExpression t (tokens.length - 1)
  | none => .emptyExpression

/-- Scans on over the tokens from `position`, with `groups` parentheses open; `ended` is the error if an operand has to
follow at the end. -/
def scanFrom (ended : SyntaxError) : ScanState → (groups position : Nat) → List Token → Except SyntaxError Unit
  | .wanted, groups, p, .number text :: ts =>
    match readNumber text p with
    | .ok _ => scanFrom ended .complete groups (p + 1) ts
    | .error error => .error error
  | .wanted, groups, p, .leftParen :: ts => scanFrom ended .wanted (groups + 1) (p + 1) ts
  | .wanted, groups, p, .operator .add :: ts => scanFrom ended .wanted groups (p + 1) ts
  | .wanted, groups, p, .operator .sub :: ts => scanFrom ended .wanted groups (p + 1) ts
  | .wanted, groups, p, .function _ :: ts => scanFrom ended .wanted groups (p + 1) ts
  | .wanted, _, p, t :: _ => .error (.unexpectedToken t p)
  | .wanted, _, _, [] => .error ended
  | .complete, groups, p, .operator _ :: ts => scanFrom ended .wanted groups (p + 1) ts
  | .complete, groups + 1, p, .rightParen :: ts => scanFrom ended .complete groups (p + 1) ts
  | .complete, _ + 1, p, _ => .error (.missingClosingParen p)
  | .complete, 0, p, t :: _ => .error (.trailingTokens t p)
  | .complete, 0, _, [] => .ok ()

/-- The verdict of the scan on a whole list. -/
def flatScan (tokens : List Token) : Except SyntaxError Unit :=
  scanFrom (errorAtEnd tokens) .wanted 0 0 tokens

/-! ### Open groups -/

/-- How many groups are open. -/
def openGroups (frames : List Frame) : Nat :=
  frames.countP (· matches .group)

@[simp]
theorem openGroups_group (frames : List Frame) : openGroups (.group :: frames) = openGroups frames + 1 :=
  List.countP_cons_of_pos rfl

@[simp]
theorem openGroups_unary (op : UnaryOp) (p : Nat) (tight : Bool) (frames : List Frame) :
    openGroups (.unary op p tight :: frames) = openGroups frames :=
  List.countP_cons_of_neg (by simp)

@[simp]
theorem openGroups_binary (l : Expr) (op : BinaryOp) (p : Nat) (frames : List Frame) :
    openGroups (.binary l op p :: frames) = openGroups frames :=
  List.countP_cons_of_neg (by simp)

/-- Settling completes no group. -/
theorem openGroups_settle (strength : Nat) (frames : List Frame) (e : Expr) :
    openGroups (settle strength frames e).frames = openGroups frames := by
  induction frames generalizing e with
  | nil => rfl
  | cons frame frames ih =>
    unfold settle
    split
    · cases frame with
      | group => rfl
      | unary op p tight => simpa [Frame.build?] using ih _
      | binary l op p => simpa [Frame.build?] using ih _
    · rfl

/-- What can follow at the level of sums closes everything back to a group, if one is open. -/
theorem settle_sum_frames (frames : List Frame) (e : Expr) :
    (settle Level.sum.strength frames e).frames = [] ∧ openGroups frames = 0 ∨
      ∃ outer, (settle Level.sum.strength frames e).frames = .group :: outer ∧
        openGroups frames = openGroups outer + 1 := by
  have hgroups := openGroups_settle Level.sum.strength frames e
  cases hf : (settle Level.sum.strength frames e).frames with
  | nil => exact .inl ⟨rfl, by rw [← hgroups, hf]; rfl⟩
  | cons frame outer =>
    -- all frames but groups bind at least as strongly as a sum, so they would have been completed
    have hframe : frame = .group := by
      rcases settle_head hf with hlt | hgroup
      · cases frame with
        | group => rfl
        | unary op p tight => cases tight <;> simp [Frame.strength, Level.strength] at hlt
        | binary l op p => exact absurd op.strength_pos (Nat.not_lt.2 (Nat.lt_succ_iff.1 hlt))
      · exact hgroup
    subst hframe
    exact .inr ⟨outer, rfl, by rw [← hgroups, hf, openGroups_group]⟩

/-! ### Readings and the scan -/

/-- What the scan knows of a reading. -/
def Reading.state : Reading → ScanState
  | wanting _ => .wanted
  | complete _ _ => .complete

/-- The frames that are open in a reading. -/
def Reading.frames : Reading → List Frame
  | wanting frames => frames
  | complete frames _ => frames

/-- What an outcome means for a whole list: an expression has to take all its tokens. -/
def Outcome.verdict (tokens : List Token) (o : Outcome) : Except SyntaxError Unit := do
  let _ ← o.result
  match tokens[o.position]? with
  | some t => .error (.trailingTokens t o.position)
  | none => .ok ()

section

variable {tokens ts : List Token} {n : Nat} {ended : SyntaxError}

private theorem verdict_complete_operator (frames : List Frame) (e : Expr) (op : BinaryOp) (p : Nat) :
    ∃ frames', openGroups frames' = openGroups frames ∧
      ((Reading.complete frames e).course ⟨.sum, n⟩ ended p (.operator op :: ts)).outcome =
        ((Reading.wanting frames').course ⟨.sum, n⟩ ended (p + 1) ts).outcome := by
  refine ⟨.binary (settle op.strength frames e).operand op p :: (settle op.strength frames e).frames, ?_, ?_⟩
  · rw [openGroups_binary, openGroups_settle]
  · have hlevel : ¬((settle op.strength frames e).frames.isEmpty ∧ op.strength < Level.sum.strength) :=
      fun ⟨_, h⟩ => absurd op.strength_pos (Nat.not_lt.2 (Nat.lt_succ_iff.1 h))
    simp only [Reading.course, Reading.turn, if_neg hlevel, Course.after]

private theorem verdict_complete_rightParen (frames : List Frame) (e : Expr) {p : Nat}
    (hp : tokens[p]? = some .rightParen) :
    (openGroups frames = 0 ∧
      ((Reading.complete frames e).course ⟨.sum, n⟩ ended p (.rightParen :: ts)).outcome.verdict tokens =
        .error (.trailingTokens .rightParen p)) ∨
    ∃ outer e', openGroups frames = openGroups outer + 1 ∧
      ((Reading.complete frames e).course ⟨.sum, n⟩ ended p (.rightParen :: ts)).outcome =
        ((Reading.complete outer e').course ⟨.sum, n⟩ ended (p + 1) ts).outcome := by
  rcases settle_sum_frames frames e with ⟨hf, hzero⟩ | ⟨outer, hf, hsucc⟩
  · refine .inl ⟨hzero, ?_⟩
    simp only [Reading.course, Reading.turn, hf, Outcome.verdict]
    simp [hp, bind, Except.bind]
  · refine .inr ⟨outer, (settle Level.sum.strength frames e).operand, hsucc, ?_⟩
    simp only [Reading.course, Reading.turn, hf, Course.after]

private theorem verdict_conclude (frames : List Frame) (e : Expr) (p : Nat) :
    Outcome.verdict tokens ⟨(conclude p frames e).2, p⟩ =
      match openGroups frames, tokens[p]? with
      | _ + 1, _ => .error (.missingClosingParen p)
      | 0, some t => .error (.trailingTokens t p)
      | 0, none => .ok () := by
  rcases settle_sum_frames frames e with ⟨hf, hzero⟩ | ⟨outer, hf, hsucc⟩
  · simp only [conclude, hf, hzero]
    cases hp : tokens[p]? <;> simp [Outcome.verdict, bind, Except.bind, hp]
  · simp only [conclude, hf, hsucc]
    rfl

private theorem verdict_wanting_prefix (frames : List Frame) {t : Token} {op : UnaryOp} (hop : t.unaryOp? = some op)
    (p : Nat) :
    ∃ frames', openGroups frames' = openGroups frames ∧
      ((Reading.wanting frames).course ⟨.sum, n⟩ ended p (t :: ts)).outcome =
        ((Reading.wanting frames').course ⟨.sum, n⟩ ended (p + 1) ts).outcome := by
  have hprefix : (⟨.sum, n⟩ : Setting).prefixOp? frames t = some op := prefixOp?_eq (fun _ => by simp) hop
  refine ⟨.unary op p (inExponent frames) :: frames, openGroups_unary .., ?_⟩
  rw [Reading.course_prefixOp hprefix, Course.after]

/-- A reading at the level of sums comes to what the scan says from here. -/
theorem course_verdict (reading : Reading) {p : Nat} (hts : tokens.drop p = ts) :
    (reading.course ⟨.sum, n⟩ ended p ts).outcome.verdict tokens =
      scanFrom ended reading.state (openGroups reading.frames) p ts := by
  induction ts generalizing reading p with
  | nil =>
    have hend : tokens[p]? = none := by simpa using hts
    cases reading with
    | wanting frames => rfl
    | complete frames e =>
      refine (verdict_conclude frames e p).trans ?_
      simp only [hend, Reading.state, Reading.frames]
      cases openGroups frames <;> rfl
  | cons t ts ih =>
    have hp : tokens[p]? = some t := by
      rw [← List.head?_drop, hts, List.head?_cons]
    have hnext : tokens.drop (p + 1) = ts := by
      rw [← List.drop_drop, hts, List.drop_one, List.tail_cons]
    cases reading with
    | wanting frames =>
      cases t with
      | number text =>
        rw [Reading.course_number]
        simp only [Reading.state, scanFrom]
        cases hx : readNumber text p with
        | ok x => exact ih (.complete frames (.value x)) hnext
        | error error => rfl
      | leftParen =>
        refine (ih (.wanting (.group :: frames)) hnext).trans ?_
        rw [Reading.frames, openGroups_group]
        rfl
      | rightParen => rfl
      | function f =>
        have hop : (Token.function f).unaryOp? = some (.function f) := rfl
        obtain ⟨frames', hgroups, hcourse⟩ := verdict_wanting_prefix frames hop p
        rw [hcourse, ih _ hnext, Reading.frames, hgroups]
        rfl
      | operator op =>
        cases op with
        | add =>
          have hop : (Token.operator .add).unaryOp? = some .identity := rfl
          obtain ⟨frames', hgroups, hcourse⟩ := verdict_wanting_prefix frames hop p
          rw [hcourse, ih _ hnext, Reading.frames, hgroups]
          rfl
        | sub =>
          have hop : (Token.operator .sub).unaryOp? = some .negate := rfl
          obtain ⟨frames', hgroups, hcourse⟩ := verdict_wanting_prefix frames hop p
          rw [hcourse, ih _ hnext, Reading.frames, hgroups]
          rfl
        | mul | div | pow | sci => rfl
    | complete frames e =>
      cases t with
      | operator op =>
        obtain ⟨frames', hgroups, hcourse⟩ := verdict_complete_operator frames e op p
        rw [hcourse, ih _ hnext, Reading.frames, hgroups]
        rfl
      | rightParen =>
        rcases verdict_complete_rightParen frames e hp with ⟨hzero, hverdict⟩ | ⟨outer, e', hsucc, hcourse⟩
        · rw [hverdict, Reading.frames, hzero]
          rfl
        · rw [hcourse, ih _ hnext, Reading.frames, Reading.frames, hsucc]
          rfl
      | number text | leftParen | function f =>
        refine (verdict_conclude frames e p).trans ?_
        simp only [hp, Reading.state, Reading.frames]
        cases openGroups frames <;> rfl

end

/-! ### Whole lists -/

private theorem endOfInput_eq (tokens : List Token) :
    Cursor.endOfInput { tokens, position := tokens.length } = errorAtEnd tokens := by
  cases tokens with
  | nil => rfl
  | cons t ts =>
    rw [errorAtEnd, List.getLast?_eq_getElem?]
    rfl

private theorem parseByDescent_map (tokens : List Token) :
    (parseByDescent tokens).2.map (fun _ => ()) = flatScan tokens := by
  have hcourse := course_eq { tokens } .sum
  have hscan : ((Reading.wanting []).course ⟨.sum, 0⟩ (errorAtEnd tokens) 0 tokens).outcome.verdict tokens =
      flatScan tokens := course_verdict (.wanting []) List.drop_zero
  rw [← endOfInput_eq] at hscan
  rw [← hscan]
  refine Eq.trans ?_ (congrArg (fun c : Course => c.outcome.verdict tokens) hcourse.symm)
  simp only [parseByDescent, Outcome.verdict, Nat.zero_add]
  cases (Cursor.descent { tokens } .sum).result with
  | error error => rfl
  | ok tree =>
    simp only [bind, Except.bind]
    cases tokens[(Cursor.descent { tokens } .sum).taken]? <;> rfl

/-- Unless a limit is passed, a token list is accepted exactly if the scan accepts it, and rejected with the error that
the scan comes to first. -/
theorem parse_map_eq_flatScan (tokens : List Token) (h : ∀ p, parse tokens ≠ .error (.nestingTooDeep p)) :
    (parse tokens).map (fun _ => ()) = flatScan tokens := by
  cases hcheck : checkAll Event.withinLimits (parseByDescent tokens).1 with
  | error refusal =>
    obtain ⟨p, rfl⟩ := checkAll_eq_error hcheck
    exact absurd (parseWith_of_error hcheck) (h p)
  | ok =>
    rw [parse, parseWith_of_ok hcheck]
    exact parseByDescent_map tokens

/-- In `0 + ( - 0 ^ sin 0 0` the scan and the parser miss a closing parenthesis before the last number. -/
theorem parse_map_unclosed :
    let zero := Token.number "0"
    let tokens := [zero, .operator .add, .leftParen, .operator .sub, zero, .operator .pow, .function .sin, zero, zero]
    (∀ p, parse tokens ≠ .error (.nestingTooDeep p)) ∧ (parse tokens).map (fun _ => ()) = flatScan tokens ∧
      flatScan tokens = .error (.missingClosingParen 8) := by
  intro zero tokens
  have hparse : parse tokens = .error (.missingClosingParen 8) := rfl
  have hlimits : ∀ p, parse tokens ≠ .error (.nestingTooDeep p) := by
    intro p h
    rw [hparse] at h
    simp at h
  exact ⟨hlimits, parse_map_eq_flatScan tokens hlimits, rfl⟩

end Calculator
