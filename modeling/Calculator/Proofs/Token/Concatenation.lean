import Calculator.Proofs.Token.Append
import Mathlib.Data.List.TakeWhile

/-!
# Errors of texts side by side

Where two texts are apart, a fault of the first is a fault of both together (`Fault.append`), and behind a text that
has a cut a fault of the second is one of both together, as many characters further on as the first text has
(`Cut.append_fault`).  So the tokens of both together, or the error, are known from each by itself, and white space
around a text only moves an error (`tokenize_append`).
-/

namespace Calculator

/-- The same error with `n` more characters before it. -/
def LexicalError.shift (n : Nat) : LexicalError → LexicalError
  | invalidCharacter c position => invalidCharacter c (n + position)
  | invalidFunctionName name position => invalidFunctionName name (n + position)

/-! ### Faults side by side -/

section

variable {a b : List Char} {e : LexicalError}

theorem Fault.append (h : Fault a e) (hab : Apart a b) : Fault (a ++ b) e := by
  cases h with
  | @character before after tokens last c hcut hw hlast hc hnone =>
    rw [List.append_assoc, List.cons_append]
    exact .character hcut hw hlast hc hnone
  | @functionName before run after tokens last hcut hbefore hafter hrun hsci hf =>
    have hnext : ∀ d ∈ (after ++ b).head?, ¬ d.isLower := by
      intro d hd hlower
      cases after with
      | cons x after => exact hafter d hd hlower
      | nil =>
        -- the run ends the first text, so no letter can begin the second
        obtain ⟨run, c, rfl⟩ := (List.eq_nil_or_concat run).resolve_left hrun.1
        rw [List.concat_eq_append] at hab hrun
        have hc : c.isLower := (isRunOf_concat.mp hrun).2
        exact hab c (by simp) d hd (.inr (.inr ⟨hc, hlower⟩))
    rw [List.append_assoc]
    exact .functionName hcut hbefore hnext hrun hsci hf

/-- A character that starts no run does not continue the last lexeme of a text that is apart from it. -/
theorem Cut.not_isRun_of_apart {tokens : List Token} {last : List Char} {c : Char} (h : Cut a tokens last)
    (hac : Apart a (c :: b)) (hc : ¬ IsRun [c]) : ¬ IsRun (last ++ [c]) := by
  rcases List.eq_nil_or_concat last with rfl | ⟨last, d, rfl⟩
  · exact hc
  obtain ⟨before, rfl⟩ := h.exists_append_last
  rw [List.concat_eq_append] at hac ⊢
  intro hrun
  have hadjoin : Adjoin d c := hrun.adjoin (by simp) (by simp)
  exact hac d (by simp) c rfl hadjoin

theorem Cut.append_fault {tokens : List Token} {last : List Char} (h : Cut a tokens last) (hb : Fault b e)
    (hab : Apart a b) : Fault (a ++ b) (e.shift a.length) := by
  cases hb with
  | @character before after tokens' last' c hcut hw hlast hc hnone =>
    have hall := h.append hcut hab.of_append_right
    have hlast' : ¬ IsRun ((if before = [] then last else last') ++ [c]) := by
      split
      · rename_i hnil
        subst hnil
        exact h.not_isRun_of_apart hab hc
      · exact hlast
    have hfault : Fault (a ++ before ++ c :: after) (.invalidCharacter c (a ++ before).length) :=
      .character hall hw hlast' hc hnone
    rw [List.length_append] at hfault
    simpa [LexicalError.shift] using hfault
  | @functionName before run after tokens' last' hcut hbefore hafter hrun hsci hf =>
    have hall := h.append hcut hab.of_append_right.of_append_right
    have hbefore' : ∀ c ∈ (a ++ before).getLast?, ¬ c.isLower := by
      intro c hc hlower
      rcases List.eq_nil_or_concat before with rfl | ⟨before, d, rfl⟩
      · -- the run begins the second text, so no letter can end the first
        obtain ⟨d, run, rfl⟩ := List.exists_cons_of_ne_nil hrun.1
        rw [List.append_nil] at hc
        exact hab c hc d rfl (.inr (.inr ⟨hlower, hrun.head⟩))
      · exact hbefore c (by simpa using hc) hlower
    have hfault := Fault.functionName hall hbefore' hafter hrun hsci hf
    rw [List.length_append, Nat.add_assoc] at hfault
    simpa [LexicalError.shift] using hfault

end

/-! ### Tokens side by side -/

theorem tokenize_append_of_apart {a b : String} (h : Apart a.toList b.toList) :
    tokenize (a ++ b) = do
      let ta ← tokenize a
      let tb ← (tokenize b).mapError (·.shift a.length)
      return ta ++ tb := by
  rcases exists_cut_or_fault a with ⟨ta, la, ha, hcut⟩ | ⟨e, ha, hfault⟩
  · rcases exists_cut_or_fault b with ⟨tb, lb, hb, hcut'⟩ | ⟨e, hb, hfault⟩
    · have hall : Cut (a ++ b).toList (ta ++ tb) _ := String.toList_append ▸ hcut.append hcut' h
      rw [ha, hb, hall.tokenize]
      rfl
    · have hall : Fault (a ++ b).toList (e.shift a.length) := by
        rw [String.toList_append, ← String.length_toList]
        exact hcut.append_fault hfault h
      rw [ha, hb, hall.tokenize]
      rfl
  · have hall : Fault (a ++ b).toList e := String.toList_append ▸ hfault.append h
    rw [ha, hall.tokenize]
    rfl

/-! ### White space around a text -/

theorem apart_of_isWhiteSpace {a b : List Char}
    (h : (∀ c ∈ a.getLast?, isWhiteSpace c) ∨ ∀ d ∈ b.head?, isWhiteSpace d) : Apart a b := by
  intro c hc d hd hadjoin
  rcases h with hw | hw
  · exact hadjoin.not_isWhiteSpace.1 (hw c hc)
  · exact hadjoin.not_isWhiteSpace.2 (hw d hd)

section

variable {a gap : String}

theorem tokenize_whiteSpace (h : ∀ c ∈ gap.toList, isWhiteSpace c) : tokenize gap = .ok [] :=
  tokenize_eq_ok.mpr (isCutInto_whiteSpace h)

theorem tokenize_append_whiteSpace (h : ∀ c ∈ gap.toList, isWhiteSpace c) : tokenize (a ++ gap) = tokenize a := by
  have hapart : Apart a.toList gap.toList :=
    apart_of_isWhiteSpace (.inr fun c hc => h c (List.mem_of_mem_head? hc))
  rw [tokenize_append_of_apart hapart, tokenize_whiteSpace h]
  cases tokenize a with
  | error e => rfl
  | ok ta => exact congrArg Except.ok (List.append_nil ta)

theorem tokenize_whiteSpace_append (h : ∀ c ∈ gap.toList, isWhiteSpace c) :
    tokenize (gap ++ a) = (tokenize a).mapError (·.shift gap.length) := by
  have hapart : Apart gap.toList a.toList :=
    apart_of_isWhiteSpace (.inl fun c hc => h c (List.mem_of_mem_getLast? hc))
  rw [tokenize_append_of_apart hapart, tokenize_whiteSpace h]
  cases tokenize a <;> rfl

end

/-- What is trimmed off a line is white space. -/
theorem exists_eq_append_trim (line : List Char) :
    ∃ trail, line = line.takeWhile isWhiteSpace ++ (trim line ++ trail) ∧ ∀ c ∈ trail, isWhiteSpace c := by
  refine ⟨((line.dropWhile isWhiteSpace).reverse.takeWhile isWhiteSpace).reverse, ?_, fun c hc => ?_⟩
  · rw [trim, ← List.reverse_append, List.takeWhile_append_dropWhile, List.reverse_reverse,
      List.takeWhile_append_dropWhile]
  · exact List.mem_takeWhile_imp (List.mem_reverse.mp hc)

theorem tokenize_trim (line : List Char) :
    tokenize (String.ofList line) =
      (tokenize (String.ofList (trim line))).mapError (·.shift (line.takeWhile isWhiteSpace).length) := by
  obtain ⟨trail, hline, htrail⟩ := exists_eq_append_trim line
  have hlead : ∀ c ∈ line.takeWhile isWhiteSpace, isWhiteSpace c := fun c hc => List.mem_takeWhile_imp hc
  have hsource : String.ofList line =
      String.ofList (line.takeWhile isWhiteSpace) ++ (String.ofList (trim line) ++ String.ofList trail) := by
    rw [← String.ofList_append, ← String.ofList_append, ← hline]
  rw [hsource, tokenize_whiteSpace_append (by simpa using hlead), tokenize_append_whiteSpace (by simpa using htrail),
    String.length_ofList]

/-! ### Cuts at any place -/

/-- The tokens of two texts that are apart are those of the first and then those of the second; else the error is that
of the first, or that of the second moved by the characters of the first.  Texts are apart wherever one of them ends or
begins with white space, so that a line has the tokens of the trimmed line, or its error moved by the white space
before it. -/
theorem tokenize_append :
    (∀ a b : String, Apart a.toList b.toList →
      tokenize (a ++ b) = do
        let ta ← tokenize a
        let tb ← (tokenize b).mapError (·.shift a.length)
        return ta ++ tb) ∧
      (∀ a b : List Char, (∀ c ∈ a.getLast?, isWhiteSpace c) ∨ (∀ d ∈ b.head?, isWhiteSpace d) → Apart a b) ∧
      ∀ line : List Char,
        tokenize (String.ofList line) =
          (tokenize (String.ofList (trim line))).mapError (·.shift (line.takeWhile isWhiteSpace).length) := by
  refine ⟨fun a b h => ?_, fun a b h => ?_, fun line => ?_⟩
  · exact tokenize_append_of_apart h
  · exact apart_of_isWhiteSpace h
  · exact tokenize_trim line

/-- Behind a wide space, which counts as one character, a name that is none is reported one character further on. -/
theorem tokenize_append_wide :
    (∀ c ∈ "4.\u2003".toList.getLast?, isWhiteSpace c) ∧ Apart "4.\u2003".toList "--sinn".toList ∧
      tokenize "--sinn" = .error (.invalidFunctionName "sinn" 6) ∧
      tokenize ("4.\u2003" ++ "--sinn") = .error (.invalidFunctionName "sinn" 9) := by
  have hspace : ∀ c ∈ "4.\u2003".toList.getLast?, isWhiteSpace c := by simp [isWhiteSpace]
  have hapart : Apart "4.\u2003".toList "--sinn".toList := tokenize_append.2.1 _ _ (.inl hspace)
  have hfirst : tokenize "4.\u2003" = .ok [.number "4."] := by decide +kernel
  have hsecond : tokenize "--sinn" = .error (.invalidFunctionName "sinn" 6) := by decide +kernel
  refine ⟨hspace, hapart, hsecond, ?_⟩
  rw [tokenize_append.1 _ _ hapart, hfirst, hsecond]
  rfl

end Calculator
