import Calculator.Proofs.Calculation.PrintedGroup
import Calculator.Proofs.Token.Writing

/-!
# Written trees

A tree is written with each operand in parentheses, so that no operator has to bind more strongly than another: a group
is an operand at every level (`Derives.of_primary`).  What is written has the tokens that the grammar derives the tree
from (`exists_derives_written`), and a tree that is too deep is enclosed too often first (`depth_le_writtenNesting`).
Hence the text is read back as the tree, unless too many groups and prefix operators enclose a leaf (`parse_written`).
-/

namespace Calculator

/-! ### Writing -/

namespace Expr

/-- The tree as a text: leaves as they are printed, operands in parentheses. -/
def written : Expr → String
  | value x => plainText x
  | unary op e => op.symbol ++ "(" ++ e.written ++ ")"
  | binary op l r => "(" ++ l.written ++ ")" ++ op.symbol ++ "(" ++ r.written ++ ")"

/-- The greatest number of groups and prefix operators around a leaf of the written tree. -/
def writtenNesting : Expr → Nat
  | value _ => 0
  | unary _ e => 2 + e.writtenNesting
  | binary _ l r => 1 + max l.writtenNesting r.writtenNesting

theorem depth_le_writtenNesting (e : Expr) : e.depth ≤ e.writtenNesting + 1 := by
  induction e with
  | value x => exact Nat.le_refl _
  | unary op e ih =>
    simp only [depth, writtenNesting]
    omega
  | binary op l r ihl ihr =>
    simp only [depth, writtenNesting]
    omega

end Expr

/-- The token of a prefix operator. -/
def UnaryOp.token : UnaryOp → Token
  | identity => .operator .add
  | negate => .operator .sub
  | function f => .function f

theorem UnaryOp.unaryOp?_token (op : UnaryOp) : op.token.unaryOp? = some op := by
  cases op <;> rfl

theorem UnaryOp.isCutInto_symbol (op : UnaryOp) : IsCutInto op.symbol.toList [op.token] := by
  have htext : op.token.text = op.symbol := by cases op <;> rfl
  have hwritable : op.token.IsWritable := by cases op <;> trivial
  rw [← htext]
  exact isCutInto_lexeme (spells_text hwritable)

theorem BinaryOp.isCutInto_symbol (op : BinaryOp) : IsCutInto op.symbol.toList [.operator op] := by
  have hspells : Spells (Token.operator op).text.toList (.operator op) := spells_text trivial
  exact isCutInto_lexeme hspells

/-! ### Groups as operands -/

section

variable {k : Nat} {ts : List Token} {e : Expr}

theorem Derives.sum_of_chain {level : Level} (h : Derives (.chain level) k ts e) : Derives (.chain .sum) k ts e := by
  cases level with
  | sum => exact h
  | product => exact .single h
  | power =>
    have hsigned : Derives (.signed false) k ts e := .unsigned h
    exact hsigned.sum_of_signed

/-- A primary is an operand at every level, and an expression of any. -/
theorem Derives.of_primary {category : Category} (h : Derives .primary k ts e) : Derives category k ts e := by
  have hpower : Derives (.chain .power) k ts e := .single h
  have hsigned : Derives (.signed false) k ts e := .unsigned hpower
  cases category with
  | chain level =>
    cases level with
    | sum => exact hpower.sum_of_chain
    | product => exact .single hsigned
    | power => exact hpower
  | signed tight =>
    cases tight with
    | false => exact hsigned
    | true => exact .unsigned h
  | primary => exact h

end

/-! ### Written trees read back -/

variable {e : Expr}

/-- A leaf that is finite and not negative is written as a number that denotes it. -/
theorem exists_derives_plainText_leaf {x : Float} (hfinite : x.isFinite) (hsign : isNegative x = false) :
    ∃ tokens, IsCutInto (plainText x).toList tokens ∧ Derives (.chain .sum) 0 tokens (.value x) := by
  obtain ⟨m, ⟨-, rfl, htext⟩ | ⟨hnegative, -⟩⟩ := exists_plainText_eq hfinite
  · have hliteral : readLiteral (String.ofList m.shortest.plain).toList = .ok m := by
      rw [String.toList_ofList]
      exact m.readLiteral_plain_shortest
    rw [htext]
    exact ⟨_, isCutInto_numeral m.shortest.isNumeral_plain, (Derives.number hliteral).of_primary⟩
  · rw [hsign] at hnegative
    cases hnegative

/-- What is written of a tree has tokens, and the grammar derives the tree from them. -/
theorem exists_derives_written (h : ∀ x ∈ e.leaves, x.isFinite ∧ isNegative x = false) :
    ∃ tokens, IsCutInto e.written.toList tokens ∧ Derives (.chain .sum) e.writtenNesting tokens e := by
  have hnil : IsCutInto [] [] := ⟨[], .nil⟩
  induction e with
  | value x =>
    obtain ⟨hfinite, hsign⟩ := h x (by simp [Expr.leaves])
    exact exists_derives_plainText_leaf hfinite hsign
  | unary op e ih =>
    obtain ⟨tokens, hcut, hderives⟩ := ih h
    have hsigned : Derives (.signed false) _ _ _ := Derives.signed op.unaryOp?_token hderives.group.of_primary
    have hnesting : e.writtenNesting + 1 + 1 = (Expr.unary op e).writtenNesting := by
      simp only [Expr.writtenNesting]
      omega
    refine ⟨_, ?_, hnesting ▸ hsigned.sum_of_signed⟩
    have hgroup := isCutInto_group_iff.mpr ⟨_, _, _, op.isCutInto_symbol, hcut, hnil, rfl⟩
    simpa [Expr.written] using hgroup
  | binary op l r ihl ihr =>
    obtain ⟨tl, hcutl, hl⟩ := ihl fun x hx => h x (List.mem_append_left _ hx)
    obtain ⟨tr, hcutr, hr⟩ := ihr fun x hx => h x (List.mem_append_right _ hx)
    have hchain : Derives (.chain op.level) _ _ (.binary op l r) :=
      .extend rfl hl.group.of_primary hr.group.of_primary
    have hnesting : max (l.writtenNesting + 1) (r.writtenNesting + 1) = (Expr.binary op l r).writtenNesting := by
      simp only [Expr.writtenNesting]
      omega
    refine ⟨_, ?_, hnesting ▸ hchain.sum_of_chain⟩
    -- behind the left group come the operator and the right group
    have hright := isCutInto_group_iff.mpr ⟨_, _, _, op.isCutInto_symbol, hcutr, hnil, rfl⟩
    have hleft := isCutInto_group_iff.mpr ⟨_, _, _, hnil, hcutl, hright, rfl⟩
    simpa [Expr.written] using hleft

/-- A tree whose leaves are finite and not negative is read back from its text, bit for bit, unless that is nested too
deeply: then it is refused for a limit. -/
theorem parse_written (e : Expr) (h : ∀ x ∈ e.leaves, x.isFinite ∧ isNegative x = false) :
    ∃ tokens, tokenize e.written = .ok tokens ∧
      (e.writtenNesting ≤ maxNesting → parse tokens = .ok e) ∧
      (maxNesting < e.writtenNesting → ∃ p, parse tokens = .error (.nestingTooDeep p)) := by
  obtain ⟨tokens, hcut, hderives⟩ := exists_derives_written h
  have hdepth := e.depth_le_writtenNesting
  refine ⟨tokens, tokenize_eq_ok.mpr hcut, fun hnesting => ?_, fun hnesting => ?_⟩
  · have hlimit : maxNesting + 1 ≤ maxDepth := by decide
    exact hderives.parse_eq_ok ⟨hnesting, by omega⟩
  · exact hderives.parse_eq_error fun hlimits => absurd hlimits.1 (Nat.not_le.mpr hnesting)

/-- Signs, a function and operators of each level, with a difference as an exponent, are read back from six levels of
groups and prefix operators. -/
theorem parse_written_mixed :
    let e : Expr :=
      .binary .mul (.unary .negate (.binary .pow (.value 0.5) (.binary .sub (.value 0) (.value 1e21))))
        (.unary (.function .sqrt) (.unary .identity (.binary .sci (.value 7) (.value 2))))
    (∀ x ∈ e.leaves, x.isFinite ∧ isNegative x = false) ∧
      e.written = "(-((0.5)^((0)-(1000000000000000000000))))*(sqrt(+((7)e(2))))" ∧ e.writtenNesting = 6 ∧
      ∃ tokens, tokenize e.written = .ok tokens ∧ parse tokens = .ok e := by
  intro e
  have hleaves : ∀ x ∈ e.leaves, x.isFinite ∧ isNegative x = false := by decide +kernel
  obtain ⟨tokens, htokens, hparse, -⟩ := parse_written e hleaves
  exact ⟨hleaves, by decide +kernel, rfl, tokens, htokens, hparse (by decide)⟩

end Calculator
