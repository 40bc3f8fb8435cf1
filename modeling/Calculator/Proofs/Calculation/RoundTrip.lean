import Calculator.Proofs.Calculation.Admissible
import Calculator.Proofs.Number.PlainText
import Calculator.Proofs.Token.Append
import Calculator.Script

/-!
# Printed values read back

The text of a finite value is a numeral, or a minus sign and a numeral, so it has one token or two
(`isCutInto_numeral`, `isCutInto_minus_numeral`) and is read as a number or its negative
(`exists_derives_plainText`).  Hence the text has the value that it was printed for, and printing that again gives the
same text (`plainText_reads_back`).
-/

namespace Calculator

/-! ### Numerals -/

section

variable {l : List Char} {m : Magnitude}

theorem isCutInto_numeral (h : IsNumeral l) : IsCutInto l [.number (String.ofList l)] :=
  isCutInto_lexeme (.number h)

theorem isCutInto_minus_numeral (h : IsNumeral l) :
    IsCutInto ('-' :: l) [.operator .sub, .number (String.ofList l)] := by
  have hapart : Apart ['-'] l := by
    intro c hc d hd hadjoin
    obtain rfl : '-' = c := by simpa using hc
    obtain ⟨l, rfl⟩ := List.head?_eq_some_iff.mp hd
    obtain rfl : d = '-' := by simpa [Adjoin] using hadjoin
    exact absurd h.head (by decide)
  have hminus : Spells ['-'] (.operator .sub) := .oddMinus (by simp [IsRunOf]) rfl
  exact (isCutInto_append_iff hapart).mpr ⟨_, _, isCutInto_lexeme hminus, isCutInto_numeral h, rfl⟩

theorem derives_number (h : readLiteral l = .ok m) :
    Derives (.chain .power) 0 [.number (String.ofList l)] (.value m.toFloat) := by
  have hliteral : readLiteral (String.ofList l).toList = .ok m := by rwa [String.toList_ofList]
  exact .single (.number hliteral)

theorem Derives.sum_of_signed {k : Nat} {ts : List Token} {e : Expr} (h : Derives (.signed false) k ts e) :
    Derives (.chain .sum) k ts e := by
  have hproduct : Derives (.chain .product) k ts e := .single h
  exact .single hproduct

end

/-! ### Values -/

variable {x : Float}

/-- The text of a finite value has the tokens of a number, behind a minus sign if the sign bit is set, and these make a
tree of the value. -/
theorem exists_derives_plainText (h : x.isFinite) :
    ∃ tokens k e, IsCutInto (plainText x).toList tokens ∧ Derives (.chain .sum) k tokens e ∧ e.evaluate = .ok x ∧
      k = (if isNegative x then 1 else 0) ∧ e.depth = k + 1 := by
  obtain ⟨m, hm⟩ := exists_plainText_eq h
  have hnumeral := m.shortest.isNumeral_plain
  have hnumber := derives_number m.readLiteral_plain_shortest
  have hfinite := m.isFinite_toFloat
  rcases hm with ⟨hsign, rfl, htext⟩ | ⟨hsign, rfl, htext⟩
  · have hsigned : Derives (.signed false) 0 _ _ := .unsigned hnumber
    rw [htext, hsign]
    exact ⟨_, _, _, isCutInto_numeral hnumeral, hsigned.sum_of_signed, by simp [Expr.evaluate, hfinite], rfl, rfl⟩
  · have hminus : (Token.operator .sub).unaryOp? = some .negate := rfl
    have hsigned : Derives (.signed false) 1 _ _ := .signed hminus (.unsigned hnumber)
    rw [htext, hsign]
    refine ⟨_, _, _, isCutInto_minus_numeral hnumeral, hsigned.sum_of_signed, ?_, rfl, rfl⟩
    simp [Expr.evaluate, hfinite, UnaryOp.apply, bind, Except.bind, pure, Except.pure]

theorem calculate_plainText (h : x.isFinite) : calculate (plainText x) = .ok x := by
  obtain ⟨tokens, k, e, hcut, hderives, hvalue, hk, hdepth⟩ := exists_derives_plainText h
  have hnesting : k ≤ 1 := by
    rw [hk]
    split <;> decide
  have hparse := hderives.parse_eq_ok ⟨hnesting.trans (by decide), by rw [hdepth, maxDepth]; omega⟩
  exact calculate_eq_ok_iff.2 ⟨tokens, e, tokenize_eq_ok.mpr hcut, hparse, hvalue⟩

/-- Only digits, points and minus signs are printed of a finite value. -/
theorem mem_plainText (h : x.isFinite) {c : Char} (hc : c ∈ (plainText x).toList) :
    c.isDigit ∨ c = '.' ∨ c = '-' := by
  have hplain (d : Decimal) : ∀ c ∈ d.plain, c.isDigit ∨ c = '.' ∨ c = '-' := fun c hc =>
    (d.isNumeral_plain.forall_mem c hc).imp_right .inl
  exact forall_mem_valueText hplain (.inr (.inr rfl)) h c hc

theorem plainText_ne_nil (h : x.isFinite) : (plainText x).toList ≠ [] :=
  valueText_ne_nil (fun d => d.isNumeral_plain.ne_nil) h

/-! ### Scripts -/

private theorem dropWhile_eq_self {p : Char → Bool} {l : List Char} (h : ∀ c ∈ l, ¬p c) : l.dropWhile p = l := by
  cases l with
  | nil => rfl
  | cons c l => exact List.dropWhile_cons_of_neg (h c (by simp))

theorem trim_eq_self {l : List Char} (h : ∀ c ∈ l, ¬isWhiteSpace c) : trim l = l := by
  rw [trim, dropWhile_eq_self h, dropWhile_eq_self (by simpa using h), List.reverse_reverse]

/-- A text without white space is an expression of a script of its own, unless it is empty or a comment. -/
theorem scriptExpressions_eq {text : String} (hne : text.toList ≠ []) (hcomment : text.toList.head? ≠ some '#')
    (hspace : ∀ c ∈ text.toList, ¬isWhiteSpace c) : scriptExpressions text = [text] := by
  have hline : '\n' ∉ text.toList := fun h => hspace '\n' h (by decide)
  rw [scriptExpressions, List.splitOn_eq_singleton hline, List.map_singleton, trim_eq_self hspace]
  simp [hne, hcomment]

theorem runExpression_of_calculate {source : String} (h : calculate source = .ok x) :
    runExpression {} source = [.printed (plainText x)] := by
  obtain ⟨tokens, e, htokens, he, hx⟩ := calculate_eq_ok_iff.1 h
  simp [runExpression, htokens, he, hx]

theorem runScript_plainText (h : x.isFinite) : runScript {} (plainText x) = [.printed (plainText x)] := by
  have hne := plainText_ne_nil h
  have hcomment : (plainText x).toList.head? ≠ some '#' := by
    intro hhead
    rcases mem_plainText h (List.mem_of_mem_head? hhead) with hc | hc | hc
    · exact absurd hc (by decide)
    · exact absurd hc (by decide)
    · exact absurd hc (by decide)
  have hspace : ∀ c ∈ (plainText x).toList, ¬isWhiteSpace c := by
    intro c hc
    have hadjoin : Adjoin c c := by
      rcases mem_plainText h hc with hc | hc | hc
      · exact .inl ⟨.inl hc, .inl hc⟩
      · exact .inl ⟨.inr hc, .inr hc⟩
      · exact .inr (.inl ⟨hc, hc⟩)
    exact hadjoin.not_isWhiteSpace.1
  rw [runScript, scriptExpressions_eq hne hcomment hspace]
  simp [runExpression_of_calculate (calculate_plainText h)]

/-- The text of a finite value is a numeral, behind a minus sign if the sign bit is set, and has that value, bit for
bit.  So what is printed for a line with such a value is printed again for what was printed. -/
theorem plainText_reads_back :
    (∀ x : Float, x.isFinite →
      (∃ l, IsNumeral l ∧ (plainText x).toList = if isNegative x then '-' :: l else l) ∧
        calculate (plainText x) = .ok x) ∧
      ∀ (line : String) (x : Float), calculate line = .ok x → x.isFinite →
        runExpression {} line = [.printed (plainText x)] ∧ runScript {} (plainText x) = [.printed (plainText x)] := by
  refine ⟨fun x h => ⟨?_, ?_⟩, fun line x hline h => ⟨?_, ?_⟩⟩
  · exact exists_isNumeral_plainText h
  · exact calculate_plainText h
  · exact runExpression_of_calculate hline
  · exact runScript_plainText h

/-- The sign of zero survives, and so does a fraction of a negative value. -/
theorem plainText_reads_back_negative :
    plainText (-0) = "-0" ∧ calculate "-0" = .ok (-0) ∧ calculate "1/8-1" = .ok (-0.875) ∧
      runScript {} "-0.875" = runExpression {} "1/8-1" := by
  have hzero : plainText (-0) = "-0" := by decide +kernel
  have hline : calculate "1/8-1" = .ok (-0.875) := by decide +kernel
  have hprinted : plainText (-0.875) = "-0.875" := by decide +kernel
  obtain ⟨hfirst, hagain⟩ := plainText_reads_back.2 "1/8-1" (-0.875) hline (by decide +kernel)
  refine ⟨hzero, ?_, hline, ?_⟩
  · simpa only [hzero] using (plainText_reads_back.1 (-0) (by decide +kernel)).2
  · rw [hfirst, ← hagain, hprinted]

end Calculator
