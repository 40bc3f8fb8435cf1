import Calculator.Proofs.Syntax.Grammar

/-!
# Reading depends on what is read

What is read from a cursor depends on the tokens from there to where reading ends and on the one behind them.

* Where a list begins does not matter: with `n` more tokens before it every turn is the same, with all positions greater
  by `n` (`turn_shift`), and so is the whole run (`run_shift`).  Only at the end of a list the tokens before the cursor
  are looked at, for the error there (`read_at_end`).
* Behind what is read no operator follows that the level takes (`bindsBelow_of_read`), and the same tokens are read in
  the same way before anything else that is no such operator (`Derives.read_eq`).

Both together are `read_isLocal`.
-/

namespace Calculator

/-! ### Positions further on -/

/-- The same error with `n` more tokens before it. -/
def SyntaxError.shift (n : Nat) : SyntaxError → SyntaxError
  | unexpectedToken t p => unexpectedToken t (n + p)
  | missingClosingParen p => missingClosingParen (n + p)
  | incompleteExpression t p => incompleteExpression t (n + p)
  | trailingTokens t p => trailingTokens t (n + p)
  | emptyExpression => emptyExpression
  | invalidNumber text p => invalidNumber text (n + p)
  | literalTooLarge text p => literalTooLarge text (n + p)
  | nestingTooDeep p => nestingTooDeep (n + p)

/-- The same event with `n` more tokens before it. -/
def Event.shift (n : Nat) : Event → Event
  | opened p nesting => opened (n + p) nesting
  | built p depth => built (n + p) depth

/-- The same frame with `n` more tokens before it. -/
def Frame.shift (n : Nat) : Frame → Frame
  | group => group
  | unary op p tight => unary op (n + p) tight
  | binary l op p => binary l op (n + p)

/-- The same settling with `n` more tokens before it. -/
def Settled.shift (n : Nat) (s : Settled) : Settled :=
  ⟨s.events.map (Event.shift n), s.frames.map (Frame.shift n), s.operand⟩

/-- The same reading with `n` more tokens before it. -/
def Reading.shift (n : Nat) : Reading → Reading
  | wanting frames => wanting (frames.map (Frame.shift n))
  | complete frames e => complete (frames.map (Frame.shift n)) e

/-- The same move with `n` more tokens before it. -/
def Move.shift (n : Nat) : Move → Move
  | next reading => next (reading.shift n)
  | halt result consumed => halt (result.mapError (SyntaxError.shift n)) consumed

/-- The same turn with `n` more tokens before it. -/
def Turn.shift (n : Nat) (turn : Turn) : Turn :=
  ⟨turn.events.map (Event.shift n), turn.move.shift n⟩

/-- The same outcome with `n` more tokens before it. -/
def Outcome.shift (n : Nat) (o : Outcome) : Outcome :=
  ⟨o.result.mapError (SyntaxError.shift n), n + o.position⟩

/-! ### Turns and runs further on -/

section

variable {n : Nat} {s : Setting} {frames : List Frame}

@[simp]
theorem Event.withinLimits_shift (event : Event) : (event.shift n).withinLimits = event.withinLimits := by
  cases event <;> rfl

theorem checkAll_shift (events : List Event) :
    checkAll Event.withinLimits (events.map (Event.shift n)) =
      (checkAll Event.withinLimits events).mapError (SyntaxError.shift n) := by
  have hpermits : (!Event.withinLimits ·) ∘ Event.shift n = (!Event.withinLimits ·) := by
    funext event
    simp
  unfold checkAll
  rw [List.find?_map, hpermits]
  cases events.find? (!Event.withinLimits ·) with
  | none => rfl
  | some event => cases event <;> rfl

theorem readNumber_shift (text : String) (p : Nat) :
    readNumber text (n + p) = (readNumber text p).mapError (SyntaxError.shift n) := by
  unfold readNumber
  cases readLiteral text.toList with
  | ok m => rfl
  | error fault => cases fault <;> rfl

theorem settle_shift (strength : Nat) (frames : List Frame) (e : Expr) :
    settle strength (frames.map (Frame.shift n)) e = (settle strength frames e).shift n := by
  induction frames generalizing e with
  | nil => rfl
  | cons frame frames ih =>
    have hstrength : (frame.shift n).strength = frame.strength := by cases frame <;> rfl
    rw [List.map_cons, settle, settle, hstrength]
    by_cases h : strength ≤ frame.strength
    · rw [if_pos h, if_pos h]
      cases frame with
      | group => rfl
      | unary op p tight => simp [Frame.shift, Frame.build?, ih, Settled.shift, Event.shift]
      | binary l op p => simp [Frame.shift, Frame.build?, ih, Settled.shift, Event.shift]
    · rw [if_neg h, if_neg h]
      rfl

theorem nestingIn_shift (s : Setting) (frames : List Frame) :
    s.nestingIn (frames.map (Frame.shift n)) = s.nestingIn frames := by
  have hencloses : Frame.encloses ∘ Frame.shift n = Frame.encloses := by
    funext frame
    cases frame <;> rfl
  rw [Setting.nestingIn, List.countP_map, hencloses, Setting.nestingIn]

theorem prefixOp?_shift (s : Setting) (frames : List Frame) (t : Token) :
    s.prefixOp? (frames.map (Frame.shift n)) t = s.prefixOp? frames t := by
  cases frames <;> rfl

theorem inExponent_shift (frames : List Frame) : inExponent (frames.map (Frame.shift n)) = inExponent frames := by
  cases frames with
  | nil => rfl
  | cons frame frames => cases frame <;> rfl

theorem conclude_shift (p : Nat) (frames : List Frame) (e : Expr) :
    conclude (n + p) (frames.map (Frame.shift n)) e =
      ((conclude p frames e).1.map (Event.shift n), (conclude p frames e).2.mapError (SyntaxError.shift n)) := by
  simp only [conclude, settle_shift]
  cases hf : (settle Level.sum.strength frames e).frames with
  | nil => simp [Settled.shift, hf, Except.mapError]
  | cons frame outer => simp [Settled.shift, hf, Except.mapError, SyntaxError.shift]

/-- A turn with more tokens before it is the same turn. -/
theorem turn_shift (reading : Reading) (p : Nat) (t : Token) :
    (reading.shift n).turn s (n + p) t = (reading.turn s p t).shift n := by
  cases reading with
  | wanting frames =>
    cases t with
    | number text =>
      simp only [Reading.shift, Reading.turn, readNumber_shift]
      cases readNumber text p <;> rfl
    | leftParen =>
      simp only [Reading.shift, Reading.turn, nestingIn_shift]
      rfl
    | rightParen | operator op | function f =>
      simp only [Reading.shift, Reading.turn, prefixOp?_shift, nestingIn_shift, inExponent_shift]
      split <;> rfl
  | complete frames e =>
    cases t with
    | operator op =>
      simp only [Reading.shift, Reading.turn, settle_shift, Settled.shift, List.isEmpty_map]
      split <;> rfl
    | rightParen =>
      simp only [Reading.shift, Reading.turn, settle_shift, Settled.shift]
      cases (settle Level.sum.strength frames e).frames <;> rfl
    | number text | leftParen | function f =>
      simp only [Reading.shift, Reading.turn, conclude_shift]
      rfl

/-- A run with more tokens before it is the same run. -/
theorem run_shift (ended : SyntaxError) (reading : Reading) (p : Nat) (ts : List Token) :
    (reading.shift n).run Event.withinLimits s (ended.shift n) (n + p) ts =
      (reading.run Event.withinLimits s ended p ts).shift n := by
  induction ts generalizing reading p with
  | nil =>
    cases reading with
    | wanting frames => rfl
    | complete frames e =>
      simp only [Reading.shift, Reading.run, Reading.finish, conclude_shift, checkAll_shift]
      cases checkAll Event.withinLimits (conclude p frames e).1 <;> rfl
  | cons t ts ih =>
    rw [Reading.run, Reading.run, turn_shift]
    simp only [Turn.shift, checkAll_shift]
    cases checkAll Event.withinLimits (reading.turn s p t).events with
    | error refusal => rfl
    | ok =>
      cases (reading.turn s p t).move with
      | halt result consumed => cases consumed <;> rfl
      | next reading' => exact ih reading' (p + 1)

end

/-! ### Cursors further on -/

/-- The operators of the level and of the tighter ones. -/
def Level.operators : Level → List BinaryOp
  | sum => [.add, .sub, .mul, .div, .pow, .sci]
  | product => [.mul, .div, .pow, .sci]
  | power => [.pow, .sci]

theorem Level.mem_operators_iff {level : Level} {op : BinaryOp} :
    op ∈ level.operators ↔ level.strength ≤ op.strength := by
  cases level <;> cases op <;> decide

theorem bindsBelow_drop_iff {level : Level} {tokens : List Token} {q : Nat} :
    BindsBelow level.strength (tokens.drop q) ↔ ∀ op ∈ level.operators, tokens[q]? ≠ some (.operator op) := by
  rw [BindsBelow, List.head?_drop]
  constructor
  · intro h op hop hq
    have hlt := h op hq
    have hle := Level.mem_operators_iff.1 hop
    omega
  · intro h op hq
    by_contra hnot
    exact h op (Level.mem_operators_iff.2 (Nat.not_lt.1 hnot)) hq

namespace Cursor

/-- At the end of the tokens there is nothing to read. -/
theorem read_at_end {c : Cursor} (h : c.position = c.tokens.length) (level : Level) :
    c.read level = (.error c.endOfInput, c) := by
  obtain ⟨tokens, p, n⟩ := c
  obtain rfl : p = tokens.length := h
  simp only [read, readWith, List.drop_length]
  rfl

/-- The error at the end names the token before the cursor. -/
theorem endOfInput_of_getElem? {c : Cursor} {last : Nat} {t : Token} (hp : c.position = last + 1)
    (ht : c.tokens[last]? = some t) : c.endOfInput = .incompleteExpression t last := by
  simp only [endOfInput, hp, ht]

/-- Where tokens are left, the error at their end does not depend on those before. -/
theorem endOfInput_append {before after : List Token} (h : after ≠ []) (n : Nat) :
    (⟨before ++ after, (before ++ after).length, n⟩ : Cursor).endOfInput =
      (⟨after, after.length, n⟩ : Cursor).endOfInput.shift before.length := by
  obtain ⟨t, ts, rfl⟩ := List.exists_cons_of_ne_nil h
  have hlength : (before ++ t :: ts).length = before.length + ts.length + 1 := by
    rw [List.length_append, List.length_cons]
    omega
  have hlast : (before ++ t :: ts)[before.length + ts.length]? = (t :: ts)[ts.length]? := by
    rw [List.getElem?_append_right (by omega), Nat.add_sub_cancel_left]
  obtain ⟨last, hsome⟩ : ∃ last, (t :: ts)[ts.length]? = some last := ⟨_, List.getElem?_eq_getElem (by simp)⟩
  have hlength' : (t :: ts).length = ts.length + 1 := List.length_cons
  rw [endOfInput_of_getElem? hlength (hlast.trans hsome), endOfInput_of_getElem? hlength' hsome]
  rfl

/-- With tokens left, a cursor reads what is read from these alone, further on. -/
theorem read_append (before : List Token) {after : List Token} (h : after ≠ []) (n : Nat) (level : Level) :
    let c : Cursor := ⟨before ++ after, before.length, n⟩
    let suffix : Cursor := ⟨after, 0, n⟩
    c.read level =
      ((suffix.read level).1.mapError (SyntaxError.shift before.length),
        { c with position := before.length + (suffix.read level).2.position }) := by
  intro c suffix
  have hrun := run_shift (n := before.length) (s := ⟨level, n⟩) (⟨after, after.length, n⟩ : Cursor).endOfInput
    (.wanting []) 0 after
  rw [← endOfInput_append h] at hrun
  simp only [read, readWith, c, suffix, List.drop_left, List.drop_zero]
  exact congrArg (fun o : Outcome => (o.result, ({ c with position := o.position } : Cursor))) hrun

/-! ### What follows -/

/-- Behind what is read, no operator follows that the level takes. -/
theorem bindsBelow_of_read {c : Cursor} {level : Level} {e : Expr} (h : (c.read level).1 = .ok e) :
    BindsBelow level.strength (c.tokens.drop (c.read level).2.position) := by
  cases hcheck : checkAll Event.withinLimits (c.descent level).events with
  | error refusal =>
    rw [read, readWith_of_error hcheck] at h
    cases h
  | ok =>
    rw [read, readWith_of_ok hcheck] at h ⊢
    have hends : (Goal.read (.chain level)).EndsAt _ _ := descend_endsAt h
    rwa [List.drop_drop] at hends

end Cursor

/-- What is derived within the limits is read, if no operator follows that the level takes. -/
theorem Derives.read_eq {c : Cursor} {level : Level} {k : Nat} {ts rest : List Token} {e : Expr}
    (h : Derives (.chain level) k ts e) (hfits : FitsLimits c.nesting k e)
    (hts : c.tokens.drop c.position = ts ++ rest) (hrest : BindsBelow level.strength rest) :
    c.read level = (.ok e, { c with position := c.position + ts.length }) := by
  obtain ⟨events, hd, hevents⟩ :=
    h.descend_eq hrest { c with position := c.tokens.length }.endOfInput c.nesting c.position
  rw [← hts] at hd
  have hdescent : c.descent level = ⟨events, .ok e, ts.length⟩ := hd
  have hcheck : checkAll Event.withinLimits (c.descent level).events = .ok () := by
    rw [hdescent, checkAll_eq_ok_iff]
    exact hevents.2 hfits
  rw [Cursor.read, readWith_of_ok hcheck, hdescent]

/-- A level reads the tokens from a position on as it reads them by themselves, with all positions greater by that one;
only where none are left, the error names the token before, if there is one.  Behind what it reads there is no
operator that it takes, and from any list with the same tokens there, and with no such operator behind them, it reads
the same. -/
theorem read_isLocal (tokens : List Token) (p n : Nat) (level : Level) (hp : p ≤ tokens.length) :
    let c : Cursor := ⟨tokens, p, n⟩
    let suffix : Cursor := ⟨tokens.drop p, 0, n⟩
    (¬(p = tokens.length ∧ 0 < p) →
        c.read level = ((suffix.read level).1.mapError (SyntaxError.shift p),
          ⟨tokens, p + (suffix.read level).2.position, n⟩)) ∧
      (p = tokens.length ∧ 0 < p → ∃ last, tokens[p - 1]? = some last ∧
        suffix.read level = (.error .emptyExpression, suffix) ∧
          c.read level = (.error (.incompleteExpression last (p - 1)), c)) ∧
      ∀ e q, c.read level = (.ok e, ⟨tokens, q, n⟩) →
        (∀ op ∈ level.operators, tokens[q]? ≠ some (.operator op)) ∧
          ∀ tokens' : List Token, tokens'.extract p q = tokens.extract p q →
            (∀ op ∈ level.operators, tokens'[q]? ≠ some (.operator op)) →
              Cursor.read ⟨tokens', p, n⟩ level = (.ok e, ⟨tokens', q, n⟩) := by
  intro c suffix
  refine ⟨fun hleft => ?_, fun hend => ?_, fun e q hread => ?_⟩
  · by_cases hlt : p < tokens.length
    · have hne : tokens.drop p ≠ [] := by
        rw [Ne, List.drop_eq_nil_iff]
        omega
      have happend := Cursor.read_append (tokens.take p) hne n level
      rw [List.take_append_drop, List.length_take, Nat.min_eq_left hp] at happend
      exact happend
    · obtain rfl : p = 0 := by omega
      obtain rfl : tokens = [] := List.length_eq_zero_iff.1 (by omega)
      rfl
  · obtain ⟨hend, hpos⟩ := hend
    obtain ⟨last, hlast⟩ : ∃ last, tokens[p - 1]? = some last := ⟨_, List.getElem?_eq_getElem (by omega)⟩
    have hnone : suffix.position = suffix.tokens.length := by
      simp [suffix, hend]
    refine ⟨last, hlast, ?_, ?_⟩
    · rw [Cursor.read_at_end hnone]
      rfl
    · rw [Cursor.read_at_end hend, Cursor.endOfInput_of_getElem? (Nat.sub_add_cancel hpos).symm hlast]
  · have hbelow : BindsBelow level.strength (tokens.drop q) := by
      have h := Cursor.bindsBelow_of_read (congrArg Prod.fst hread)
      rwa [hread] at h
    refine ⟨bindsBelow_drop_iff.1 hbelow, fun tokens' hsame hnext => ?_⟩
    obtain ⟨k, ts, hprefix, hend, hk, hfits⟩ := derives_of_read (congrArg Prod.fst hread)
    rw [hread] at hend
    have hq : q = p + ts.length := hend
    -- the tokens that are read are those up to `q`, and the other list has them, too
    have hpassed : tokens'.extract p q = ts := by
      rw [hsame, List.extract_eq_take_drop, hq, Nat.add_sub_cancel_left]
      exact (List.prefix_iff_eq_take.1 hprefix).symm
    have hts : tokens'.drop p = ts ++ tokens'.drop q := by
      rw [← hpassed, List.extract_eq_take_drop, hq, Nat.add_sub_cancel_left, ← List.drop_drop, List.take_append_drop]
    have hread' := hk.read_eq (c := ⟨tokens', p, n⟩) hfits hts (bindsBelow_drop_iff.2 hnext)
    rw [hread', hq]

/-- In `) 2 ^ - 3 * /` the second token begins a power, which is the same in `( 2 ^ - 3 )`.  The product that begins
there fails at the last token. -/
theorem read_isLocal_power :
    let power : List Token := [.number "2", .operator .pow, .operator .sub, .number "3"]
    let behind : List Token := [.operator .mul, .operator .div]
    let behind' : List Token := [.rightParen]
    let tokens : List Token := .rightParen :: (power ++ behind)
    let tokens' : List Token := .leftParen :: (power ++ behind')
    let e : Expr := .binary .pow (.value 2) (.unary .negate (.value 3))
    Cursor.read ⟨tokens, 1, 255⟩ .power = (.ok e, ⟨tokens, 5, 255⟩) ∧
      Cursor.read ⟨tokens', 1, 255⟩ .power = (.ok e, ⟨tokens', 5, 255⟩) ∧
      Cursor.read ⟨tokens, 1, 0⟩ .product = (.error (.unexpectedToken (.operator .div) 6), ⟨tokens, 6, 0⟩) := by
  intro power behind behind' tokens tokens' e
  have hread : Cursor.read ⟨tokens, 1, 255⟩ .power = (.ok e, ⟨tokens, 5, 255⟩) := by decide +kernel
  obtain ⟨-, -, hright⟩ := read_isLocal tokens 1 255 .power (by decide)
  obtain ⟨hleft, -, -⟩ := read_isLocal tokens 1 0 .product (by decide)
  have hsuffix : Cursor.read ⟨tokens.drop 1, 0, 0⟩ .product =
      (.error (.unexpectedToken (.operator .div) 5), ⟨tokens.drop 1, 5, 0⟩) := by decide +kernel
  have hshifted := hleft (by decide)
  rw [hsuffix] at hshifted
  exact ⟨hread, (hright e 5 hread).2 tokens' rfl (by decide), hshifted⟩

end Calculator
