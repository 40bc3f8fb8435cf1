import Calculator.Calculation
import Calculator.Proofs.Expr.Leaves
import Calculator.Proofs.Number.Bits
import Calculator.Proofs.Syntax.Grammar

/-!
# What is read can be evaluated

A tree that is read from tokens, at any level and from any cursor, is derived within the limits (`derives_of_read`), so
that its leaves are magnitudes (`Derives.eq_toFloat`).  Hence it has a value, and a text that has none owes this to its
characters or to its tokens (`read_isAdmissible`).
-/

namespace Calculator

/-- What is sure of a tree that was read: its values are finite and not negative, no tree in it is too deep, and it has
a value. -/
structure Expr.IsAdmissible (e : Expr) : Prop where
  leaves : ∀ x ∈ e.leaves, x.isFinite ∧ isNegative x = false
  subtrees : ∀ s ∈ e.subtrees, s.depth ≤ maxDepth
  value : ∃ x, e.evaluate = .ok x

/-! ### Leaves of what is derived -/

theorem Derives.eq_toFloat {category : Category} {k : Nat} {ts : List Token} {e : Expr} (h : Derives category k ts e)
    {x : Float} (hx : x ∈ e.leaves) : ∃ m : Magnitude, x = m.toFloat := by
  induction h with
  | @number text m hm => exact ⟨m, by simpa [Expr.leaves] using hx⟩
  | group _ ih | signed _ _ ih | unsigned _ ih | single _ ih => exact ih hx
  | extend _ _ _ ihl ihr => exact (List.mem_append.1 hx).elim ihl ihr

theorem Derives.isAdmissible {category : Category} {k : Nat} {ts : List Token} {e : Expr}
    (h : Derives category k ts e) (hdepth : e.depth ≤ maxDepth) : e.IsAdmissible := by
  have hleaves : ∀ x ∈ e.leaves, x.isFinite ∧ isNegative x = false := by
    intro x hx
    obtain ⟨m, rfl⟩ := h.eq_toFloat hx
    exact ⟨m.isFinite_toFloat, m.isNegative_toFloat⟩
  exact ⟨hleaves, fun s hs => Nat.le_trans (Expr.depth_le_of_mem_subtrees hs) hdepth,
    Expr.exists_evaluate_eq fun x hx => (hleaves x hx).1⟩

theorem isAdmissible_of_parse {tokens : List Token} {e : Expr} (h : parse tokens = .ok e) : e.IsAdmissible := by
  obtain ⟨k, hk, _, hdepth⟩ := derives_of_parse h
  exact hk.isAdmissible hdepth

theorem isAdmissible_of_read {c : Cursor} {level : Level} {e : Expr} (h : (c.read level).1 = .ok e) :
    e.IsAdmissible := by
  obtain ⟨_, _, _, _, hk, _, hdepth⟩ := derives_of_read h
  exact hk.isAdmissible hdepth

/-! ### Texts -/

/-- A text fails at its characters, fails at its tokens or has a value. -/
theorem stages_of_calculate (source : String) :
    (∃ error, tokenize source = .error error ∧ calculate source = .error (.lexical error)) ∨
      (∃ tokens error, tokenize source = .ok tokens ∧ parse tokens = .error error ∧
        calculate source = .error (.syntactic error)) ∨
      ∃ tokens e x, tokenize source = .ok tokens ∧ parse tokens = .ok e ∧ e.evaluate = .ok x ∧
        calculate source = .ok x := by
  unfold calculate
  cases htokens : tokenize source with
  | error error => exact .inl ⟨error, rfl, rfl⟩
  | ok tokens =>
    cases htree : parse tokens with
    | error error => exact .inr (.inl ⟨tokens, error, rfl, htree, by simp [htree, bind, Except.bind, Except.mapError]⟩)
    | ok e =>
      obtain ⟨x, hx⟩ := (isAdmissible_of_parse htree).value
      exact .inr (.inr ⟨tokens, e, x, rfl, htree, hx, by simp [htree, hx, bind, Except.bind, Except.mapError]⟩)

theorem calculate_eq_ok_iff {source : String} {x : Float} :
    calculate source = .ok x ↔
      ∃ tokens e, tokenize source = .ok tokens ∧ parse tokens = .ok e ∧ e.evaluate = .ok x := by
  constructor
  · intro h
    rcases stages_of_calculate source with ⟨_, _, h'⟩ | ⟨_, _, _, _, h'⟩ | ⟨tokens, e, y, htokens, he, hy, h'⟩
    · cases h.symm.trans h'
    · cases h.symm.trans h'
    · obtain rfl : x = y := Except.ok.inj (h.symm.trans h')
      exact ⟨tokens, e, htokens, he, hy⟩
  · rintro ⟨tokens, e, htokens, he, hx⟩
    simp [calculate, htokens, he, hx, bind, Except.bind, Except.mapError]

theorem calculate_eq_syntactic {source : String} {tokens : List Token} {error : SyntaxError}
    (htokens : tokenize source = .ok tokens) (h : parse tokens = .error error) :
    calculate source = .error (.syntactic error) := by
  simp [calculate, htokens, h, bind, Except.bind, Except.mapError]

/-- Trees that are read, at any level and from any cursor or as a whole list, are admissible; so evaluation is no stage
at which a text fails. -/
theorem read_isAdmissible :
    (∀ (c : Cursor) (level : Level) (e : Expr), (c.read level).1 = .ok e → e.IsAdmissible) ∧
      (∀ (tokens : List Token) (e : Expr), parse tokens = .ok e → e.IsAdmissible) ∧
      ∀ source,
        (∃ error, tokenize source = .error error ∧ calculate source = .error (.lexical error)) ∨
          (∃ tokens error, tokenize source = .ok tokens ∧ parse tokens = .error error ∧
            calculate source = .error (.syntactic error)) ∨
          ∃ tokens e x, tokenize source = .ok tokens ∧ parse tokens = .ok e ∧ e.evaluate = .ok x ∧
            calculate source = .ok x := by
  refine ⟨fun c level e h => ?_, fun tokens e h => ?_, fun source => ?_⟩
  · exact isAdmissible_of_read h
  · exact isAdmissible_of_parse h
  · exact stages_of_calculate source

/-- From inside 254 groups, at the second token of `) 2.5 ^ - ( 7 ) x`, a power is read that takes the nesting to its
limit. -/
theorem read_isAdmissible_nested :
    let c : Cursor := ⟨[.rightParen, .number "2.5", .operator .pow, .operator .sub, .leftParen, .number "7",
      .rightParen, .number "x"], 1, 254⟩
    let e : Expr := .binary .pow (.value 2.5) (.unary .negate (.value 7))
    (c.read .power).1 = .ok e ∧ e.IsAdmissible := by
  intro c e
  have h : (c.read .power).1 = .ok e := by decide +kernel
  exact ⟨h, read_isAdmissible.1 c .power e h⟩

end Calculator
