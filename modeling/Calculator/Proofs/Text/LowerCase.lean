import Calculator.Proofs.Token.LexicalGrammar
import Calculator.Text.LowerCase
import Mathlib

/-!
# Lower case in context

Each character of a text is mapped by itself, except a capital sigma, which has to end a word to become a final one.
`Lowers before text image` says so with the words of the rule, and holds of one image only, the computed one
(`lowers_iff`).

The characters below 128 are mapped within themselves, to the small letters that they are in either case
(`lowerCaseAfter_of_lt`).  Every other character has something in its image that is no such letter, or the letter `k`,
which the sign of the unit kelvin becomes (`exists_mem_lowerCaseAfter`).
-/

namespace Calculator

variable {before text image : List Char}

/-! ### The rule -/

/-- Behind characters that are ignored comes a cased one. -/
def BeginsCased (text : List Char) : Prop :=
  ∃ ignored c rest, text = ignored ++ c :: rest ∧ (∀ d ∈ ignored, isCaseIgnorable d) ∧ ¬isCaseIgnorable c ∧ isCased c

/-- A character between the two texts ends a word: a cased character comes before it, and none comes next. -/
def EndsWord (before after : List Char) : Prop :=
  BeginsCased before.reverse ∧ ¬BeginsCased after

/-- The image is the lower case of the text, which stands behind another. -/
inductive Lowers : List Char → List Char → List Char → Prop
  | nil {before : List Char} : Lowers before [] []
  | finalSigma {before text image : List Char} : EndsWord before text →
      Lowers (before ++ ['\u03A3']) text image → Lowers before ('\u03A3' :: text) ('\u03C2' :: image)
  | sigma {before text image : List Char} : ¬EndsWord before text →
      Lowers (before ++ ['\u03A3']) text image → Lowers before ('\u03A3' :: text) ('\u03C3' :: image)
  | other {before text image : List Char} {c : Char} : c ≠ '\u03A3' →
      Lowers (before ++ [c]) text image → Lowers before (c :: text) (lowerCaseChar c ++ image)

theorem beginsCased_iff : beginsCased text ↔ BeginsCased text := by
  have hsplit := List.takeWhile_append_dropWhile (p := isCaseIgnorable) (l := text)
  constructor
  · intro h
    cases hrest : text.dropWhile isCaseIgnorable with
    | nil => simp [beginsCased, hrest] at h
    | cons c rest =>
      have hcased : isCased c := by simpa [beginsCased, hrest] using h
      have hc : ¬isCaseIgnorable c := by
        have hhead := List.head?_dropWhile_not isCaseIgnorable text
        simpa [hrest] using hhead
      rw [hrest] at hsplit
      exact ⟨_, c, rest, hsplit.symm, fun d hd => List.mem_takeWhile_imp hd, hc, hcased⟩
  · rintro ⟨ignored, c, rest, rfl, hignored, hc, hcased⟩
    rw [beginsCased, List.dropWhile_append_of_pos hignored, List.dropWhile_cons_of_neg hc]
    exact hcased

theorem endsWord_iff : beginsCased before.reverse && !beginsCased text ↔ EndsWord before text := by
  rw [EndsWord, ← beginsCased_iff, ← beginsCased_iff]
  simp

/-- What is computed behind `before`, with its characters in reverse, is the one lower case. -/
theorem lowers_iff : Lowers before text image ↔ lowerCaseAfter before.reverse text = image := by
  constructor
  · intro h
    induction h with
    | nil => rfl
    | finalSigma hends _ ih =>
      have hfinal := endsWord_iff.2 hends
      simpa [lowerCaseAfter, hfinal] using ih
    | sigma hends _ ih =>
      have hfinal := mt endsWord_iff.1 hends
      simpa only [lowerCaseAfter, if_pos, if_neg hfinal, List.reverse_append, List.reverse_singleton,
        List.singleton_append, List.cons.injEq, true_and] using ih
    | other hc _ ih =>
      rw [lowerCaseAfter, if_neg hc]
      simpa using ih
  · rintro rfl
    induction text generalizing before with
    | nil => exact .nil
    | cons c text ih =>
      have htail : Lowers (before ++ [c]) text (lowerCaseAfter (before ++ [c]).reverse text) := ih
      rw [List.reverse_append, List.reverse_singleton, List.singleton_append] at htail
      by_cases hc : c = '\u03A3'
      · subst hc
        by_cases hends : EndsWord before text
        · have hfinal := endsWord_iff.2 hends
          simpa [lowerCaseAfter, hfinal] using Lowers.finalSigma hends htail
        · have hfinal := mt endsWord_iff.1 hends
          rw [lowerCaseAfter, if_pos rfl, if_neg hfinal]
          exact .sigma hends htail
      · rw [lowerCaseAfter, if_neg hc]
        exact .other hc htail

/-! ### Small letters -/

section

variable {c : Char}

theorem lowerCaseChar_of_lt (h : c.toNat < 128) : lowerCaseChar c = [c.toLower] := by
  have hall : ∀ n ∈ List.range 128, lowerCaseChar (Char.ofNat n) = [(Char.ofNat n).toLower] := by decide +kernel
  simpa using hall c.toNat (List.mem_range.2 h)

/-- Among the ranges behind the first one, only that of the kelvin sign has an image below 128. -/
theorem image_of_mem_lowerCaseRanges {r : CaseRange} (h : r ∈ lowerCaseRanges) :
    r.last < 128 ∨ 128 ≤ r.image ∨ r.first = r.last ∧ r.image = 'k'.toNat := by
  revert r
  decide +kernel

theorem toLower_of_le (h : 128 ≤ c.toNat) : c.toLower = c := by
  apply Char.toLower_eq_of_not_isUpper
  intro hupper
  have hlast : c.toNat ≤ 'Z'.toNat := by
    simp only [Char.isUpper, decide_eq_true_eq] at hupper
    exact UInt32.le_iff_toNat_le.1 hupper.2
  exact absurd (h.trans hlast) (by decide)

theorem not_isLower_ofNat {n : Nat} (h : 128 ≤ n) : ¬(Char.ofNat n).isLower := by
  rw [isLower_iff, Char.toNat_ofNat]
  split <;> omega

theorem exists_mem_lowerCaseChar (h : 128 ≤ c.toNat) : ∃ d ∈ lowerCaseChar c, ¬d.isLower ∨ d = 'k' := by
  unfold lowerCaseChar
  split
  · exact ⟨'\u0307', by simp, .inl (by decide)⟩
  · cases hfind : lowerCaseRanges.findSome? (·.map? c.toNat) with
    | none =>
      have hlower : ¬c.isLower := by
        rw [isLower_iff]
        omega
      exact ⟨c, by simp, .inl hlower⟩
    | some n =>
      obtain ⟨r, hr, hmap⟩ := List.exists_of_findSome?_eq_some hfind
      obtain ⟨⟨hfirst, hlast, -⟩, hn⟩ := Option.ite_some_none_eq_some.1 hmap
      refine ⟨Char.ofNat n, by simp, ?_⟩
      rcases image_of_mem_lowerCaseRanges hr with hr | hr | ⟨hone, himage⟩
      · omega
      · exact .inl (not_isLower_ofNat (by omega))
      · obtain rfl : n = 'k'.toNat := by omega
        exact .inr rfl

/-- Something in the image of a text tells that one of its characters is not below 128. -/
theorem exists_mem_lowerCaseAfter (before : List Char) (hc : c ∈ text) (h : 128 ≤ c.toNat) :
    ∃ d ∈ lowerCaseAfter before text, ¬d.isLower ∨ d = 'k' := by
  induction text generalizing before with
  | nil => cases hc
  | cons b text ih =>
    rw [lowerCaseAfter]
    rcases List.mem_cons.1 hc with rfl | hc
    · split
      · refine ⟨_, List.mem_append_left _ (List.mem_singleton_self _), .inl ?_⟩
        split <;> decide
      · obtain ⟨d, hd, hletter⟩ := exists_mem_lowerCaseChar h
        exact ⟨d, List.mem_append_left _ hd, hletter⟩
    · obtain ⟨d, hd, hletter⟩ := ih _ hc
      exact ⟨d, List.mem_append_right _ hd, hletter⟩

end

theorem lowerCaseAfter_of_lt (h : ∀ c ∈ text, c.toNat < 128) : lowerCaseAfter before text = text.map Char.toLower := by
  induction text generalizing before with
  | nil => rfl
  | cons c text ih =>
    obtain ⟨hc, htext⟩ := List.forall_mem_cons.1 h
    have hsigma : c ≠ '\u03A3' := by
      rintro rfl
      exact absurd hc (by decide)
    rw [lowerCaseAfter, if_neg hsigma, lowerCaseChar_of_lt hc, ih htext]
    rfl

end Calculator
