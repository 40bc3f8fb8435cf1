import Calculator.Proofs.Expr.Listing
import Calculator.Proofs.Token.Writing

/-!
# Listings are faithful

What is listed before a value tells all there is to know.  The listing of a token ends its kind at the first opening
parenthesis and its text at the end, whatever that text is (`Token.listing_inj`), and the text of a token that was read
has no space in it, so that the spaces on a line of tokens are those between them (`listTokens_inj`).  With the listings
of trees (`Expr.listingText_inj`) this gives `listings_inj`.
-/

namespace Calculator

/-! ### Single tokens -/

theorem TokenKind.label_inj {k k' : TokenKind} : k.label = k'.label ↔ k = k' := by
  cases k <;> cases k' <;> decide

theorem TokenKind.isRunOf_label (k : TokenKind) : IsRunOf Char.isAlpha k.label.toList := by
  cases k <;> simp [IsRunOf, label]

namespace Token

/-- Kind and text make the token. -/
theorem eq_of_kind_of_text {t t' : Token} (hkind : t.kind = t'.kind) (htext : t.text = t'.text) : t = t' := by
  cases t <;> cases t' <;> simp_all [kind, text, BinaryOp.symbol_inj, Function.name_inj]

theorem toList_listing (t : Token) : t.listing.toList = t.kind.label.toList ++ '(' :: (t.text.toList ++ [')']) := by
  simp [listing]

theorem listing_inj {t t' : Token} (h : t.listing = t'.listing) : t = t' := by
  have hlistings := congrArg String.toList h
  rw [toList_listing, toList_listing] at hlistings
  have hparen (k : TokenKind) : '(' ∉ k.label.toList := fun hmem => absurd (k.isRunOf_label.2 '(' hmem) (by decide)
  obtain ⟨hlabel, -, htext⟩ := eq_of_append_cons hlistings (hparen t'.kind) (hparen t.kind)
  refine eq_of_kind_of_text (TokenKind.label_inj.1 (String.toList_inj.1 hlabel)) ?_
  exact String.toList_inj.1 (List.append_cancel_right htext)

theorem IsWritable.space_notMem_text {t : Token} (h : t.IsWritable) : ' ' ∉ t.text.toList := by
  intro hmem
  cases t with
  | number text =>
    rcases IsNumeral.forall_mem h ' ' hmem with hspace | hspace <;> exact absurd hspace (by decide)
  | operator op => cases op <;> exact absurd hmem (by decide)
  | leftParen => exact absurd hmem (by decide)
  | rightParen => exact absurd hmem (by decide)
  | function f => exact absurd ((isRunOf_name f).2 ' ' hmem) (by decide)

theorem IsWritable.space_notMem_listing {t : Token} (h : t.IsWritable) : ' ' ∉ t.listing.toList := by
  rw [toList_listing, List.mem_append, List.mem_cons, List.mem_append, List.mem_singleton]
  rintro (hlabel | hparen | htext | hparen)
  · exact absurd (t.kind.isRunOf_label.2 ' ' hlabel) (by decide)
  · exact absurd hparen (by decide)
  · exact h.space_notMem_text htext
  · exact absurd hparen (by decide)

end Token

/-! ### Lines of tokens -/

theorem listTokens_ne_empty {tokens : List Token} (h : tokens ≠ []) : listTokens tokens ≠ "" := by
  obtain ⟨t, tokens, rfl⟩ := List.exists_cons_of_ne_nil h
  intro hempty
  have hmem : '(' ∈ (listTokens (t :: tokens)).toList := by
    cases tokens <;> simp [listTokens, Token.toList_listing]
  rw [hempty] at hmem
  exact absurd hmem (by decide)

/-- Tokens that can be written are listed on different lines. -/
theorem listTokens_inj {ts ts' : List Token} (hts : ∀ t ∈ ts, t.IsWritable) (hts' : ∀ t ∈ ts', t.IsWritable)
    (h : listTokens ts = listTokens ts') : ts = ts' := by
  by_cases hne : ts = []
  · subst hne
    by_contra hne'
    exact listTokens_ne_empty (Ne.symm hne') h.symm
  by_cases hne' : ts' = []
  · subst hne'
    exact absurd h (listTokens_ne_empty hne)
  have hspace {ts : List Token} (hts : ∀ t ∈ ts, t.IsWritable) : ∀ s ∈ ts.map Token.listing, ' ' ∉ s.toList :=
    List.forall_mem_map.2 fun t ht => (hts t ht).space_notMem_listing
  have hlistings := intercalate_inj rfl (hspace hts) (hspace hts') (by simpa using hne) (by simpa using hne') h
  exact List.map_injective_iff.2 (fun _ _ => Token.listing_inj) hlistings

/-- A number that is not a numeral can be listed as two tokens are, but no such number is read. -/
example : listTokens [.number "1) Number(2"] = listTokens [.number "1", .number "2"] := by decide +kernel

/-! ### Both listings -/

/-- Tokens that were read are the same if their lines are, and trees with finite leaves are the same, leaves bit for
bit, if the texts that list them are. -/
theorem listings_inj :
    (∀ (a b : String) (ts ts' : List Token), tokenize a = .ok ts → tokenize b = .ok ts' →
      listTokens ts = listTokens ts' → ts = ts') ∧
      ∀ e e' : Expr, (∀ x ∈ e.leaves, x.isFinite) → (∀ x ∈ e'.leaves, x.isFinite) →
        e.listingText = e'.listingText → e = e' := by
  refine ⟨fun a b ts ts' ha hb h => ?_, fun e e' he he' h => Expr.listingText_inj he he' h⟩
  obtain ⟨last, hcut⟩ := tokenize_eq_ok.mp ha
  obtain ⟨last', hcut'⟩ := tokenize_eq_ok.mp hb
  exact listTokens_inj hcut.isWritable hcut'.isWritable h

/-- Three minus signs are listed as one, and a value by its shortest decimal, however it came about, with its sign also
if it is zero. -/
theorem listings_inj_signs :
    let tokens : List Token := [.leftParen, .number "2", .operator .sub, .number "3", .rightParen]
    let e : Expr := .unary .negate (.binary .sub (.value (1 - 1)) (.value 1e-7))
    let e' : Expr := .unary .negate (.binary .sub (.value 0) (.value (1 / 10000000)))
    tokenize "(2---3)" = .ok tokens ∧ listTokens tokens = "Paren(() Number(2) Operator(-) Number(3) Paren())" ∧
      (∃ ts, tokenize "( 2 - 3 )" = .ok ts ∧ listTokens ts = listTokens tokens ∧ ts = tokens) ∧
      e.listingText = e'.listingText ∧ e = e' ∧
      (Expr.value (-0)).listingText = "Value(\n    -0.0,\n)" ∧ Expr.value 0 ≠ Expr.value (-0) := by
  intro tokens e e'
  have htokens : tokenize "(2---3)" = .ok tokens := by decide +kernel
  obtain ⟨ts, hts, hline⟩ : ∃ ts, tokenize "( 2 - 3 )" = .ok ts ∧ listTokens ts = listTokens tokens :=
    ⟨tokens, by decide +kernel, rfl⟩
  have hleaves : ∀ x ∈ e.leaves, x.isFinite := by decide +kernel
  have hleaves' : ∀ x ∈ e'.leaves, x.isFinite := by decide +kernel
  have htext : e.listingText = e'.listingText := by decide +kernel
  have hzero : (Expr.value 0).listingText ≠ (Expr.value (-0)).listingText := by decide +kernel
  refine ⟨htokens, by decide +kernel, ⟨ts, hts, hline, ?_⟩, htext, ?_, by decide +kernel, fun h => ?_⟩
  · exact listings_inj.1 _ _ ts tokens hts htokens hline
  · exact listings_inj.2 e e' hleaves hleaves' htext
  · exact hzero (congrArg Expr.listingText h)

end Calculator
