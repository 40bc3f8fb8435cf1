import Calculator.Proofs.Calculation.Admissible
import Calculator.Proofs.Syntax.SignRun
import Calculator.Proofs.Token.Append

/-!
# Runs of minus signs

A run of minus signs is read as one sign.  With white space between its characters it is read as that many signs, and
yet the value is the same (`calculate_spaced`): the tokens of such texts differ by signs that are split
(`splitsInto_gap`, `splitsInto_gaps`).
-/

namespace Calculator

/-! ### A run among other characters -/

/-- A text is a run of some character, possibly empty, and something that does not begin with it. -/
private theorem exists_replicate_append (c : Char) (l : List Char) :
    ∃ n rest, l = List.replicate n c ++ rest ∧ rest.head? ≠ some c := by
  induction l with
  | nil => exact ⟨0, [], rfl, by simp⟩
  | cons d l ih =>
    by_cases hd : d = c
    · subst hd
      obtain ⟨n, rest, rfl, hrest⟩ := ih
      exact ⟨n + 1, rest, rfl, hrest⟩
    · exact ⟨0, d :: l, rfl, by simpa using hd⟩

private theorem exists_append_replicate (c : Char) (l : List Char) :
    ∃ n rest, l = rest ++ List.replicate n c ∧ rest.getLast? ≠ some c := by
  obtain ⟨n, rest, hl, hrest⟩ := exists_replicate_append c l.reverse
  refine ⟨n, rest.reverse, ?_, by simpa using hrest⟩
  simpa using congrArg List.reverse hl

variable {before after a b gap : List Char} {tokens : List Token}

theorem spells_signToken (n : Nat) : Spells (List.replicate (n + 1) '-') (signToken (n + 1)) := by
  have hrun : IsRunOf (· == '-') (List.replicate (n + 1) '-') := by simp [IsRunOf]
  simp [spells_minus_iff hrun, signToken, signBinary]

/-- The tokens of a text with a run of minus signs. -/
theorem isCutInto_minus_iff (hbefore : before.getLast? ≠ some '-') (hafter : after.head? ≠ some '-') (n : Nat) :
    IsCutInto (before ++ (List.replicate (n + 1) '-' ++ after)) tokens ↔
      ∃ tb ta, IsCutInto before tb ∧ IsCutInto after ta ∧ tokens = tb ++ signToken (n + 1) :: ta := by
  have hminus : ∀ {c : Char}, (Adjoin c '-' → c = '-') ∧ (Adjoin '-' c → c = '-') := by
    simp [Adjoin]
  have hapart : Apart before (List.replicate (n + 1) '-' ++ after) := by
    intro c hc d hd hadjoin
    obtain rfl : '-' = d := by simpa [List.replicate_succ] using hd
    rw [Option.mem_def.mp hc, hminus.1 hadjoin] at hbefore
    exact hbefore rfl
  have hapart' : Apart (List.replicate (n + 1) '-') after := by
    intro c hc d hd hadjoin
    obtain rfl : '-' = c := by simpa [List.replicate_succ'] using hc
    rw [Option.mem_def.mp hd, hminus.2 hadjoin] at hafter
    exact hafter rfl
  exact isCutInto_append_lexeme_iff (spells_signToken n) hapart hapart'

/-! ### Texts with split signs -/

/-- Both texts have tokens or neither has, and those of the second are those of the first with signs split. -/
structure SplitsInto (a b : List Char) : Prop where
  expand {tokens : List Token} (h : IsCutInto a tokens) : ∃ tokens', IsCutInto b tokens' ∧ IsSplit tokens tokens'
  collapse {tokens' : List Token} (h : IsCutInto b tokens') : ∃ tokens, IsCutInto a tokens ∧ IsSplit tokens tokens'

theorem SplitsInto.refl (a : List Char) : SplitsInto a a :=
  ⟨fun h => ⟨_, h, .refl _⟩, fun h => ⟨_, h, .refl _⟩⟩

theorem SplitsInto.trans {c : List Char} (h : SplitsInto a b) (h' : SplitsInto b c) : SplitsInto a c where
  expand ha := by
    obtain ⟨_, hb, hab⟩ := h.expand ha
    obtain ⟨_, hc, hbc⟩ := h'.expand hb
    exact ⟨_, hc, hab.trans hbc⟩
  collapse hc := by
    obtain ⟨_, hb, hbc⟩ := h'.collapse hc
    obtain ⟨_, ha, hab⟩ := h.collapse hb
    exact ⟨_, ha, hab.trans hbc⟩

/-- A run of minus signs may be cut in two by white space. -/
theorem splitsInto_cut (hbefore : before.getLast? ≠ some '-') (hafter : after.head? ≠ some '-')
    (h : IsRunOf isWhiteSpace gap) (i j : Nat) :
    SplitsInto (before ++ (List.replicate (i + 1 + j + 1) '-' ++ after))
      (before ++ (List.replicate (i + 1) '-' ++ (gap ++ (List.replicate (j + 1) '-' ++ after)))) := by
  have hminus : ¬ isWhiteSpace '-' := by decide
  have hlast : gap.getLast? ≠ some '-' := fun hgap => hminus (h.2 _ (List.mem_of_mem_getLast? hgap))
  have hrest : (gap ++ (List.replicate (j + 1) '-' ++ after)).head? ≠ some '-' := by
    obtain ⟨c, gap, rfl⟩ := List.exists_cons_of_ne_nil h.1
    rintro ⟨rfl⟩
    exact hminus h.head
  have hsplit := fun tb ta => isSplit_sign tb ta (i + 1) (j + 1)
  constructor
  · intro tokens htokens
    obtain ⟨tb, ta, hb, ha, rfl⟩ := (isCutInto_minus_iff hbefore hafter _).mp htokens
    refine ⟨_, (isCutInto_minus_iff hbefore hrest i).mpr ⟨tb, _, hb, ?_, rfl⟩, hsplit tb ta⟩
    exact (isCutInto_minus_iff hlast hafter j).mpr ⟨[], ta, isCutInto_whiteSpace h.2, ha, rfl⟩
  · intro tokens htokens
    obtain ⟨tb, rest, hb, hgap, rfl⟩ := (isCutInto_minus_iff hbefore hrest i).mp htokens
    obtain ⟨tg, ta, hg, ha, rfl⟩ := (isCutInto_minus_iff hlast hafter j).mp hgap
    obtain rfl := hg.unique (isCutInto_whiteSpace h.2)
    exact ⟨_, (isCutInto_minus_iff hbefore hafter _).mpr ⟨tb, ta, hb, ha, rfl⟩, hsplit tb ta⟩

/-- White space may come between two minus signs, wherever they stand in a run. -/
theorem splitsInto_gap (before after : List Char) (h : IsRunOf isWhiteSpace gap) :
    SplitsInto (before ++ '-' :: '-' :: after) (before ++ '-' :: (gap ++ '-' :: after)) := by
  -- the whole run has `i` signs more on the left and `j` more on the right
  obtain ⟨i, before, rfl, hbefore⟩ := exists_append_replicate '-' before
  obtain ⟨j, after, rfl, hafter⟩ := exists_replicate_append '-' after
  have hwhole : before ++ List.replicate i '-' ++ '-' :: '-' :: (List.replicate j '-' ++ after) =
      before ++ (List.replicate (i + 1 + j + 1) '-' ++ after) := by
    have hcount : i + 1 + j + 1 = i + (j + 2) := by omega
    rw [hcount, ← List.replicate_append_replicate]
    simp [List.replicate_succ]
  have hparts : before ++ List.replicate i '-' ++ '-' :: (gap ++ '-' :: (List.replicate j '-' ++ after)) =
      before ++ (List.replicate (i + 1) '-' ++ (gap ++ (List.replicate (j + 1) '-' ++ after))) := by
    rw [List.replicate_succ' (n := i), List.replicate_succ (n := j)]
    simp
  rw [hwhole, hparts]
  exact splitsInto_cut hbefore hafter h i j

theorem splitsInto_gaps (before after : List Char) {gaps : List (List Char)}
    (h : ∀ gap ∈ gaps, IsRunOf isWhiteSpace gap) :
    SplitsInto (before ++ (List.replicate (gaps.length + 1) '-' ++ after))
      (before ++ '-' :: (gaps.flatMap (· ++ ['-']) ++ after)) := by
  induction gaps generalizing before with
  | nil => exact .refl _
  | cons gap gaps ih =>
    obtain ⟨hgap, hgaps⟩ := List.forall_mem_cons.mp h
    -- the first gap is made while the rest of the run is whole, and then counts as what stands before that
    have hone := splitsInto_gap before (List.replicate gaps.length '-' ++ after) hgap
    have hrest := ih (before ++ '-' :: gap) hgaps
    simpa [List.replicate_succ] using hone.trans (by simpa [List.replicate_succ] using hrest)

/-! ### Values -/

/-- Splitting signs in a text keeps its value, unless a limit is passed. -/
theorem SplitsInto.calculate {source source' : String} (h : SplitsInto source.toList source'.toList) :
    (∀ x, calculate source' = .ok x → calculate source = .ok x) ∧
      ∀ x, calculate source = .ok x →
        calculate source' = .ok x ∨ ∃ p, calculate source' = .error (.syntactic (.nestingTooDeep p)) := by
  constructor
  · intro x hx
    obtain ⟨tokens', e', htokens', he', hvalue'⟩ := calculate_eq_ok_iff.1 hx
    obtain ⟨tokens, htokens, hsplit⟩ := h.collapse (tokenize_eq_ok.mp htokens')
    obtain ⟨e, he, hvalue⟩ := hsplit.parse_eq_ok he'
    exact calculate_eq_ok_iff.2 ⟨tokens, e, tokenize_eq_ok.mpr htokens, he, hvalue.symm.trans hvalue'⟩
  · intro x hx
    obtain ⟨tokens, e, htokens, he, hvalue⟩ := calculate_eq_ok_iff.1 hx
    obtain ⟨tokens', htokens', hsplit⟩ := h.expand (tokenize_eq_ok.mp htokens)
    rcases hsplit.parse_split he with ⟨e', he', hvalue'⟩ | ⟨p, hp⟩
    · exact .inl (calculate_eq_ok_iff.2 ⟨tokens', e', tokenize_eq_ok.mpr htokens', he', hvalue'.trans hvalue⟩)
    · exact .inr ⟨p, calculate_eq_syntactic (tokenize_eq_ok.mpr htokens') hp⟩

/-- White space between the characters of a run of minus signs, wherever it stands, makes a text pass a limit or keeps
its value; and it gives no value to a text that has none. -/
theorem calculate_spaced (a b : String) {gaps : List String} (h : ∀ gap ∈ gaps, IsRunOf isWhiteSpace gap.toList) :
    let run := a ++ String.ofList (List.replicate (gaps.length + 1) '-') ++ b
    let spaced := a ++ "-" ++ String.join (gaps.map (· ++ "-")) ++ b
    (∀ x, calculate spaced = .ok x → calculate run = .ok x) ∧
      ∀ x, calculate run = .ok x →
        calculate spaced = .ok x ∨ ∃ p, calculate spaced = .error (.syntactic (.nestingTooDeep p)) := by
  have hgaps : ∀ gap ∈ gaps.map String.toList, IsRunOf isWhiteSpace gap := by
    simpa using h
  refine SplitsInto.calculate ?_
  simpa [List.flatMap_map] using splitsInto_gaps a.toList b.toList hgaps

/-- The three signs of a difference with a negative product may stand apart. -/
theorem calculate_spaced_product :
    (∀ gap ∈ [" ", "\t "], IsRunOf isWhiteSpace gap.toList) ∧
      calculate "(4- -\t -3*4/8)" = .ok 2.5 ∧ calculate "(4---3*4/8)" = .ok 2.5 := by
  have hgaps : ∀ gap ∈ [" ", "\t "], IsRunOf isWhiteSpace gap.toList := by simp [IsRunOf, isWhiteSpace]
  have hspaced : calculate ("(4" ++ "-" ++ String.join ([" ", "\t "].map (· ++ "-")) ++ "3*4/8)") = .ok 2.5 := by
    decide +kernel
  exact ⟨hgaps, hspaced, (calculate_spaced "(4" "3*4/8)" hgaps).1 _ hspaced⟩

end Calculator
