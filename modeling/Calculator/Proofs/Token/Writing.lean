import Calculator.Proofs.Token.Concatenation

/-!
# Tokens written and read again

The text of a token spells it (`spells_text`), and white space ends every lexeme, so that tokens written with white
space between them are read as they were (`isCutInto_writeTokens`).  The numbers among the tokens of a text are
numerals (`Cut.isWritable`), so these tokens can be written and read again, too; where a run of minus signs was read as
one sign, that sign is written by itself (`tokenize_writeTokens`).
-/

namespace Calculator

/-- The tokens as they are written, each but the first behind a gap. -/
def writeTokens (gaps : List String) (tokens : List Token) : String :=
  String.join (List.zipWith (fun gap t => gap ++ t.text) ("" :: gaps) tokens)

/-! ### Single tokens -/

/-- Whether the token is read again as it is written: if it is a number, it has to be a numeral. -/
def Token.IsWritable : Token → Prop
  | number text => IsNumeral text.toList
  | _ => True

theorem spells_text {t : Token} (h : t.IsWritable) : Spells t.text.toList t := by
  cases t with
  | number text =>
    have hnumber : Spells text.toList (.number (String.ofList text.toList)) := .number h
    rwa [String.ofList_toList] at hnumber
  | operator op =>
    cases op with
    | add => exact .plus
    | sub =>
      have hminus : IsRunOf (· == '-') ['-'] := by simp [IsRunOf]
      exact .oddMinus hminus rfl
    | mul => exact .times
    | div => exact .slash
    | pow => exact .caret
    | sci => exact .sci
  | leftParen => exact .leftParen
  | rightParen => exact .rightParen
  | function f => exact .function f

theorem Spells.isWritable {l : List Char} {t : Token} (h : Spells l t) : t.IsWritable := by
  cases h with
  | number h =>
    show IsNumeral (String.ofList l).toList
    rwa [String.toList_ofList]
  | _ => trivial

theorem Cut.isWritable {text last : List Char} {tokens : List Token} (h : Cut text tokens last) :
    ∀ t ∈ tokens, t.IsWritable := by
  induction h with
  | nil => simp
  | blank _ _ ih => exact ih
  | lexeme _ ht _ ih =>
    intro t hmem
    rcases List.mem_append.mp hmem with hmem | hmem
    · exact ih t hmem
    · obtain rfl := List.mem_singleton.mp hmem
      exact ht.isWritable

/-! ### Tokens behind gaps -/

theorem isCutInto_whiteSpace_append {gap rest : List Char} {tokens : List Token} (hgap : ∀ c ∈ gap, isWhiteSpace c)
    (hrest : IsCutInto rest tokens) : IsCutInto (gap ++ rest) tokens := by
  have hapart : Apart gap rest := apart_of_isWhiteSpace (.inl fun c hc => hgap c (List.mem_of_mem_getLast? hc))
  exact (isCutInto_append_iff hapart).mpr ⟨[], tokens, isCutInto_whiteSpace hgap, hrest, rfl⟩

theorem isCutInto_text_append {t : Token} {rest : List Char} {tokens : List Token} (ht : t.IsWritable)
    (hrest : IsCutInto rest tokens) (hspace : ∀ c ∈ rest.head?, isWhiteSpace c) :
    IsCutInto (t.text.toList ++ rest) (t :: tokens) := by
  have hapart : Apart t.text.toList rest := apart_of_isWhiteSpace (.inr hspace)
  exact (isCutInto_append_iff hapart).mpr ⟨[t], tokens, isCutInto_lexeme (spells_text ht), hrest, rfl⟩

/-- Tokens, each behind a gap, are read as they were, and their text begins with white space. -/
theorem isCutInto_gaps {tokens : List Token} {gaps : List String} (htokens : ∀ t ∈ tokens, t.IsWritable)
    (hgaps : ∀ gap ∈ gaps, IsRunOf isWhiteSpace gap.toList) (hlength : tokens.length ≤ gaps.length) :
    let text := (String.join (List.zipWith (fun gap t => gap ++ t.text) gaps tokens)).toList
    IsCutInto text tokens ∧ ∀ c ∈ text.head?, isWhiteSpace c := by
  induction tokens generalizing gaps with
  | nil =>
    rw [List.zipWith_nil_right]
    exact ⟨⟨[], .nil⟩, by simp⟩
  | cons t tokens ih =>
    obtain ⟨gap, gaps, rfl⟩ := List.exists_cons_of_length_pos (Nat.lt_of_lt_of_le (Nat.succ_pos _) hlength)
    obtain ⟨ht, htokens⟩ := List.forall_mem_cons.mp htokens
    obtain ⟨hgap, hgaps⟩ := List.forall_mem_cons.mp hgaps
    obtain ⟨hcut, hspace⟩ := ih htokens hgaps (Nat.le_of_succ_le_succ hlength)
    simp only [List.zipWith_cons_cons, String.join_cons, String.toList_append, List.append_assoc]
    refine ⟨isCutInto_whiteSpace_append hgap.2 (isCutInto_text_append ht hcut hspace), fun c hc => ?_⟩
    obtain ⟨d, l, hd⟩ := List.exists_cons_of_ne_nil hgap.1
    rw [hd] at hc hgap
    obtain rfl : d = c := by simpa using hc
    exact hgap.head

theorem isCutInto_writeTokens {tokens : List Token} {gaps : List String} (htokens : ∀ t ∈ tokens, t.IsWritable)
    (hgaps : ∀ gap ∈ gaps, IsRunOf isWhiteSpace gap.toList) (hlength : tokens.length ≤ gaps.length + 1) :
    IsCutInto (writeTokens gaps tokens).toList tokens := by
  cases tokens with
  | nil => exact ⟨[], .nil⟩
  | cons t tokens =>
    obtain ⟨ht, htokens⟩ := List.forall_mem_cons.mp htokens
    obtain ⟨hcut, hspace⟩ := isCutInto_gaps htokens hgaps (Nat.le_of_succ_le_succ hlength)
    have hcut' := isCutInto_text_append ht hcut hspace
    simpa [writeTokens] using hcut'

/-! ### Spaces as gaps -/

theorem writeTokens_cons_cons (gap : String) (gaps : List String) (t t' : Token) (tokens : List Token) :
    writeTokens (gap :: gaps) (t :: t' :: tokens) = t.text ++ gap ++ writeTokens gaps (t' :: tokens) := by
  simp [writeTokens, String.append_assoc]

theorem writeTokens_spaces (tokens : List Token) :
    writeTokens (List.replicate tokens.length " ") tokens = " ".intercalate (tokens.map Token.text) := by
  cases tokens with
  | nil => rfl
  | cons t tokens =>
    induction tokens generalizing t with
    | nil => simp [writeTokens]
    | cons t' tokens ih =>
      have hgaps : List.replicate (t :: t' :: tokens).length " " = " " :: List.replicate (t' :: tokens).length " " :=
        List.replicate_succ
      rw [hgaps, writeTokens_cons_cons, ih t', List.map_cons, List.map_cons, List.map_cons,
        String.intercalate_cons_cons]

/-! ### Tokens read again -/

/-- Tokens whose numbers are numerals are read again from their texts, whatever white space stands between these.  So
are the tokens of any text, with spaces between them. -/
theorem tokenize_writeTokens :
    (∀ (tokens : List Token) (gaps : List String), (∀ t ∈ tokens, t.IsWritable) →
      (∀ gap ∈ gaps, IsRunOf isWhiteSpace gap.toList) → tokens.length ≤ gaps.length + 1 →
        tokenize (writeTokens gaps tokens) = .ok tokens) ∧
      ∀ (source : String) (tokens : List Token), tokenize source = .ok tokens →
        tokenize (" ".intercalate (tokens.map Token.text)) = .ok tokens := by
  refine ⟨fun tokens gaps htokens hgaps hlength => ?_, fun source tokens h => ?_⟩
  · exact tokenize_eq_ok.mpr (isCutInto_writeTokens htokens hgaps hlength)
  · obtain ⟨last, hcut⟩ := tokenize_eq_ok.mp h
    have hgaps : ∀ gap ∈ List.replicate tokens.length " ", IsRunOf isWhiteSpace gap.toList := by
      intro gap hgap
      obtain rfl := List.eq_of_mem_replicate hgap
      simp [IsRunOf, isWhiteSpace]
    rw [← writeTokens_spaces]
    exact tokenize_eq_ok.mpr (isCutInto_writeTokens hcut.isWritable hgaps (by simp))

/-- In `1e-- -exp2.` two signs stand side by side, the first of them for two minus signs; the same tokens with gaps of
all kinds are read alike. -/
theorem tokenize_writeTokens_signs :
    let tokens : List Token :=
      [.number "1", .operator .sci, .operator .add, .operator .sub, .function .exp, .number "2."]
    let gaps := ["\t", " ", "\u3000", "\r\n", "\u2028 "]
    tokenize "1e-- -exp2." = .ok tokens ∧ tokenize "1 e + - exp 2." = .ok tokens ∧
      tokenize (writeTokens gaps tokens) = .ok tokens := by
  intro tokens gaps
  have hsource : tokenize "1e-- -exp2." = .ok tokens := by decide +kernel
  have htokens : ∀ t ∈ tokens, t.IsWritable := by
    obtain ⟨last, hcut⟩ := tokenize_eq_ok.mp hsource
    exact hcut.isWritable
  have hgaps : ∀ gap ∈ gaps, IsRunOf isWhiteSpace gap.toList := by simp [gaps, IsRunOf, isWhiteSpace]
  exact ⟨hsource, tokenize_writeTokens.2 _ _ hsource, tokenize_writeTokens.1 tokens gaps htokens hgaps (by decide)⟩

end Calculator
