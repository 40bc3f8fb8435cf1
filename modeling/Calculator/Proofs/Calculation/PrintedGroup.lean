import Calculator.Proofs.Calculation.RoundTrip
import Calculator.Proofs.Syntax.Parentheses

/-!
# Groups replaced by their printed values

A parenthesis stands apart from everything, so the tokens of a text with something in parentheses are those of its parts
(`isCutInto_group_iff`).  If both that and the whole have values, the parenthesised tokens are a group, and so are those
of the printed value in their place (`calculate_printed_group`).
-/

namespace Calculator

/-! ### Texts in parentheses -/

/-- A character that stands in no lexeme with others is apart from whatever is around. -/
theorem apart_singleton {c : Char} (hleft : ∀ d, ¬ Adjoin d c) (hright : ∀ d, ¬ Adjoin c d) (a b : List Char) :
    Apart a ([c] ++ b) ∧ Apart [c] b := by
  constructor
  · intro d _ d' hd'
    obtain rfl : c = d' := by simpa using hd'
    exact hleft d
  · intro c' hc' d _
    obtain rfl : c = c' := by simpa using hc'
    exact hright d

theorem isCutInto_group_iff {a s b : List Char} {tokens : List Token} :
    IsCutInto (a ++ '(' :: (s ++ ')' :: b)) tokens ↔
      ∃ ta ts tb, IsCutInto a ta ∧ IsCutInto s ts ∧ IsCutInto b tb ∧
        tokens = ta ++ .leftParen :: (ts ++ .rightParen :: tb) := by
  have hopen : Apart a (['('] ++ (s ++ ')' :: b)) ∧ Apart ['('] (s ++ ')' :: b) :=
    apart_singleton (by simp [Adjoin]) (by simp [Adjoin]) a _
  have hclose : Apart s ([')'] ++ b) ∧ Apart [')'] b := apart_singleton (by simp [Adjoin]) (by simp [Adjoin]) s b
  refine (isCutInto_append_lexeme_iff .leftParen hopen.1 hopen.2).trans ?_
  constructor
  · rintro ⟨ta, rest, hta, hrest, rfl⟩
    obtain ⟨ts, tb, hts, htb, rfl⟩ := (isCutInto_append_lexeme_iff .rightParen hclose.1 hclose.2).mp hrest
    exact ⟨ta, ts, tb, hta, hts, htb, rfl⟩
  · rintro ⟨ta, ts, tb, hta, hts, htb, rfl⟩
    have hrest := (isCutInto_append_lexeme_iff .rightParen hclose.1 hclose.2).mpr ⟨ts, tb, hts, htb, rfl⟩
    exact ⟨ta, _, hta, hrest, rfl⟩

/-! ### Values -/

/-- What stands in parentheses may be replaced by its printed value: the whole keeps its value, unless a minus sign that
is printed is one too many. -/
theorem calculate_printed_group (a s b : String) {x y : Float} (hs : calculate s = .ok x) (hx : x.isFinite)
    (hwhole : calculate (a ++ "(" ++ s ++ ")" ++ b) = .ok y) :
    let printed := calculate (a ++ "(" ++ plainText x ++ ")" ++ b)
    (printed = .ok y ∨ ∃ p, printed = .error (.syntactic (.nestingTooDeep p))) ∧
      (isNegative x = false → printed = .ok y) := by
  obtain ⟨ts, u, hts, hu, hvalue⟩ := calculate_eq_ok_iff.1 hs
  obtain ⟨tokens, t, htokens, ht, hy⟩ := calculate_eq_ok_iff.1 hwhole
  rw [tokenize_eq_ok] at hts htokens
  -- the parts of the whole text are those of the replaced one, except what is in the parentheses
  obtain ⟨ta, ts', tb, hta, hts', htb, rfl⟩ := isCutInto_group_iff.mp (by simpa using htokens)
  obtain rfl := hts.unique hts'
  obtain ⟨tx, k, u', htx, hu', hvalue', hk, hdepth⟩ := exists_derives_plainText hx
  have hcut := isCutInto_group_iff.mpr ⟨ta, tx, tb, hta, htx, htb, rfl⟩
  have htokens' : tokenize (a ++ "(" ++ plainText x ++ ")" ++ b) = .ok _ := tokenize_eq_ok.mpr (by simpa using hcut)
  obtain ⟨t', ht', hreplaced, hnumber⟩ := parse_replace_group ht hu hu' (hvalue'.trans hvalue.symm)
  have hresult (hok : parse _ = .ok t') : calculate (a ++ "(" ++ plainText x ++ ")" ++ b) = .ok y :=
    calculate_eq_ok_iff.2 ⟨_, t', htokens', hok, ht'.trans hy⟩
  refine ⟨hreplaced.imp hresult ?_, ?_⟩
  · rintro ⟨p, herror⟩
    exact ⟨p, calculate_eq_syntactic htokens' herror⟩
  · intro hsign
    obtain rfl : k = 0 := by simpa [hsign] using hk
    exact hresult (hnumber rfl hdepth)

/-- A difference between other signs may be replaced by its value. -/
theorem calculate_printed_group_difference :
    calculate "1-1/4" = .ok 0.75 ∧ plainText 0.75 = "0.75" ∧ calculate "2*(1-1/4)/3" = .ok 0.5 ∧
      calculate "2*(0.75)/3" = .ok 0.5 := by
  have hpart : calculate "1-1/4" = .ok 0.75 := by decide +kernel
  have hprinted : plainText 0.75 = "0.75" := by decide +kernel
  have hwhole : calculate ("2*" ++ "(" ++ "1-1/4" ++ ")" ++ "/3") = .ok 0.5 := by decide +kernel
  have hreplaced := (calculate_printed_group "2*" "1-1/4" "/3" hpart (by decide +kernel) hwhole).2 (by decide +kernel)
  rw [hprinted] at hreplaced
  exact ⟨hpart, hprinted, hwhole, hreplaced⟩

end Calculator
