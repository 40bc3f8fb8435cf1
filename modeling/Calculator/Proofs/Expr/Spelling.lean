import Calculator.Expr.Spelling
import Calculator.Proofs.Text.LowerCase

/-!
# Spellings of function names

The names consist of small letters other than `k`, so only a text of letters below 128 has a name as its lower case, and
of those the lower case changes the capitals (`lowerCase_eq_name_iff`).  Hence a text spells a function exactly if it is
the name up to the case of these letters, and every other text is refused with its lower case (`ofSpelling_iff`).
-/

namespace Calculator

namespace Function

variable (f : Function)

theorem k_notMem_name : 'k' ∉ f.name.toList := by
  cases f <;> simp [name]

theorem isLower_of_mem_name {c : Char} (h : c ∈ f.name.toList) : c.isLower :=
  (isRunOf_name f).2 c h

theorem toLower_name : f.name.toLower = f.name := by
  have hmap : f.name.toList.map Char.toLower = f.name.toList.map id := by
    apply List.map_congr_left
    intro c hc
    have hupper : ¬c.isUpper := Char.not_isUpper_of_isLower (f.isLower_of_mem_name hc)
    exact Char.toLower_eq_of_not_isUpper hupper
  rw [String.toLower, ← String.toList_inj, String.toList_map, hmap, List.map_id]

end Function

/-! ### Names as lower case -/

section

variable {text : String} {f : Function}

/-- No text with a character from 128 on has a name as its lower case. -/
theorem lt_of_lowerCase_eq_name (h : lowerCase text = f.name) : ∀ c ∈ text.toList, c.toNat < 128 := by
  intro c hc
  by_contra hlt
  obtain ⟨d, hd, hletter⟩ := exists_mem_lowerCaseAfter [] hc (Nat.not_lt.1 hlt)
  have hname : d ∈ f.name.toList := by
    rw [← h, lowerCase, String.toList_ofList]
    exact hd
  rcases hletter with hletter | rfl
  · exact hletter (f.isLower_of_mem_name hname)
  · exact f.k_notMem_name hname

/-- Nor does such a text become a name in the case of the letters below 128. -/
theorem lt_of_toLower_eq_name (h : text.toLower = f.name) : ∀ c ∈ text.toList, c.toNat < 128 := by
  intro c hc
  by_contra hlt
  have hname : c ∈ f.name.toList := by
    rw [← h, String.toLower, String.toList_map, ← toLower_of_le (Nat.not_lt.1 hlt)]
    exact List.mem_map_of_mem hc
  have hletter := isLower_iff.1 (f.isLower_of_mem_name hname)
  omega

theorem lowerCase_of_lt (h : ∀ c ∈ text.toList, c.toNat < 128) : lowerCase text = text.toLower := by
  rw [lowerCase, lowerCaseAfter_of_lt h, String.toLower, ← String.toList_map, String.ofList_toList]

theorem lowerCase_eq_name_iff : lowerCase text = f.name ↔ text.toLower = f.name.toLower := by
  rw [f.toLower_name]
  constructor
  · intro h
    rw [← h, lowerCase_of_lt (lt_of_lowerCase_eq_name h)]
  · intro h
    rw [← h, lowerCase_of_lt (lt_of_toLower_eq_name h)]

theorem ofSpelling_eq_ok_iff : Function.ofSpelling text = .ok f ↔ text.toLower = f.name.toLower := by
  rw [← lowerCase_eq_name_iff, @eq_comm _ (lowerCase text), ← Function.ofName?_eq_some_iff, Function.ofSpelling]
  cases Function.ofName? (lowerCase text) <;> simp

theorem ofSpelling_eq_error (h : ∀ f : Function, text.toLower ≠ f.name.toLower) :
    Function.ofSpelling text = .error ⟨lowerCase text⟩ := by
  cases hname : Function.ofName? (lowerCase text) with
  | some f =>
    have hf := Function.ofName?_eq_some_iff.1 hname
    exact absurd (lowerCase_eq_name_iff.1 hf.symm) (h f)
  | none => simp only [Function.ofSpelling, hname]

theorem lowers_lowerCase_iff {image : List Char} :
    Lowers [] text.toList image ↔ image = (lowerCase text).toList := by
  rw [lowers_iff, lowerCase, String.toList_ofList]
  exact eq_comm

end

/-- A text spells a function exactly if it is its name up to the case of the letters below 128.  Every other text is
unknown, and reported as the one text that is its lower case by the full rule; so is every text with a character from
128 on. -/
theorem ofSpelling_iff (text : String) :
    (∀ f : Function, Function.ofSpelling text = .ok f ↔ text.toLower = f.name.toLower) ∧
      ((∀ f : Function, text.toLower ≠ f.name.toLower) → ∃ name,
        Function.ofSpelling text = .error ⟨name⟩ ∧ ∀ image, Lowers [] text.toList image ↔ image = name.toList) ∧
      ((∃ c ∈ text.toList, 128 ≤ c.toNat) → ∀ f : Function, Function.ofSpelling text ≠ .ok f) := by
  refine ⟨fun f => ofSpelling_eq_ok_iff, fun h => ?_, ?_⟩
  · exact ⟨lowerCase text, ofSpelling_eq_error h, fun image => lowers_lowerCase_iff⟩
  · rintro ⟨c, hc, hle⟩ f hok
    have hname : lowerCase text = f.name := lowerCase_eq_name_iff.2 (ofSpelling_eq_ok_iff.1 hok)
    have hlt := lt_of_lowerCase_eq_name hname c hc
    omega

/-- Capitals spell a function, and a capital sigma in the place of an `s` does not: it becomes a final sigma.  Nor does
the capital I with a dot, which becomes an `i` and more. -/
theorem ofSpelling_iff_sigma :
    Function.ofSpelling "aTaN" = .ok .atan ∧ (∀ f : Function, "CO\u03A3".toLower ≠ f.name.toLower) ∧
      Function.ofSpelling "CO\u03A3" = .error ⟨"co\u03C2"⟩ ∧ Lowers [] "CO\u03A3".toList "co\u03C2".toList ∧
      (∃ c ∈ "s\u0130n".toList, 128 ≤ c.toNat) ∧ Function.ofSpelling "s\u0130n" ≠ .ok .sin := by
  have hsigma : Function.ofSpelling "CO\u03A3" = .error ⟨"co\u03C2"⟩ := by decide +kernel
  have hother : ∀ f : Function, "CO\u03A3".toLower ≠ f.name.toLower := by
    intro f hf
    rw [f.toLower_name] at hf
    exact absurd (lt_of_toLower_eq_name hf '\u03A3' (by simp)) (by decide)
  have hdotted : ∃ c ∈ "s\u0130n".toList, 128 ≤ c.toNat := ⟨'\u0130', by simp, by decide⟩
  obtain ⟨name, hname, hlowers⟩ := (ofSpelling_iff "CO\u03A3").2.1 hother
  obtain rfl : "co\u03C2" = name := by simpa [hsigma] using hname
  refine ⟨((ofSpelling_iff "aTaN").1 .atan).2 ?_, hother, hsigma, (hlowers _).2 rfl, hdotted,
    (ofSpelling_iff "s\u0130n").2.2 hdotted .sin⟩
  simp [String.toLower, ← String.toList_inj, Function.name]

end Calculator
