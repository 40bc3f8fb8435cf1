import Calculator.Number.Literal
import Calculator.Number.Shortest
import Calculator.Proofs.Number.Bits
import Calculator.Proofs.Token.LexicalGrammar
import Mathlib.Data.List.TakeWhile

/-!
# Plain texts are numerals

* a text has the form of a literal exactly if it is a numeral (`isLiteral_iff`);
* the digits of a decimal in their places are a numeral of the same value (`isNumeral_plain`, `literalValue_plain`), so
  that the shortest decimal of a magnitude is read as that magnitude (`readLiteral_plain_shortest`);
* a finite value is printed as such a numeral, behind a minus sign if its sign bit is set
  (`exists_isNumeral_plainText`).
-/

namespace Calculator

/-! ### Literals -/

section

variable {whole fraction l : List Char}

theorem forall_ne_point (h : '.' ∉ l) : ∀ c ∈ l, decide (c ≠ '.') := by
  intro c hc
  rw [decide_eq_true_iff]
  rintro rfl
  exact h hc

theorem splitAtPoint_of_notMem (h : '.' ∉ l) : splitAtPoint l = (l, []) := by
  have hall := forall_ne_point h
  rw [splitAtPoint, List.takeWhile_eq_self_iff.2 hall, List.dropWhile_eq_nil_iff.2 hall, List.drop_nil]

theorem splitAtPoint_append (h : '.' ∉ whole) : splitAtPoint (whole ++ '.' :: fraction) = (whole, fraction) := by
  have hall := forall_ne_point h
  rw [splitAtPoint, List.takeWhile_append_of_pos hall, List.dropWhile_append_of_pos hall]
  simp

theorem point_notMem (h : ∀ c ∈ l, c.isDigit) : '.' ∉ l :=
  fun hpoint => absurd (h '.' hpoint) (by decide)

theorem isLiteral_iff : isLiteral l ↔ IsNumeral l := by
  constructor
  · intro h
    by_cases hpoint : '.' ∈ l
    · obtain ⟨whole, fraction, rfl, hwhole⟩ := List.eq_append_cons_of_mem hpoint
      rw [isLiteral, splitAtPoint_append hwhole] at h
      have hdigits : (whole ≠ [] ∧ ∀ c ∈ whole, c.isDigit) ∧ ∀ c ∈ fraction, c.isDigit := by simpa using h
      exact .inr ⟨whole, fraction, hdigits.1, hdigits.2, rfl⟩
    · rw [isLiteral, splitAtPoint_of_notMem hpoint] at h
      exact .inl (by simpa [IsRunOf] using h)
  · rintro (h | ⟨whole, fraction, hwhole, hfraction, rfl⟩)
    · rw [isLiteral, splitAtPoint_of_notMem (point_notMem h.2)]
      simpa [IsRunOf] using h
    · rw [isLiteral, splitAtPoint_append (point_notMem hwhole.2)]
      simpa [IsRunOf] using And.intro hwhole hfraction

end

/-! ### Digits in their places -/

namespace Decimal

/-- How many digits stand after the point. -/
def places (d : Decimal) : Nat :=
  (-d.exponent).toNat

/-- The digits that stand in the places, without a point. -/
def placed (d : Decimal) : List Char :=
  (d.digits ++ List.replicate d.exponent.toNat '0').leftpad (d.places + 1) '0'

/-- The digits that stand before the point. -/
def whole (d : Decimal) : List Char :=
  d.placed.take (d.placed.length - d.places)

/-- The digits that stand after the point. -/
def fraction (d : Decimal) : List Char :=
  d.placed.drop (d.placed.length - d.places)

theorem plain_eq (d : Decimal) :
    d.plain = if d.places = 0 then d.placed else d.whole ++ '.' :: d.fraction :=
  rfl

variable (d : Decimal)

theorem placed_isDigit : ∀ c ∈ d.placed, c.isDigit := by
  have hzero : ('0').isDigit := rfl
  intro c hc
  rcases List.mem_append.mp hc with hc | hc
  · rwa [List.eq_of_mem_replicate hc]
  · rcases List.mem_append.mp hc with hc | hc
    · exact Nat.isDigit_of_mem_toDigits (by decide) (by decide) hc
    · rwa [List.eq_of_mem_replicate hc]

theorem places_lt_length : d.places < d.placed.length := by
  rw [placed, List.length_leftpad]
  omega

theorem ofDigitChars_placed :
    Nat.ofDigitChars 10 d.placed 0 = d.coefficient * Nat.pow 10 d.exponent.toNat := by
  simp only [placed, List.leftpad, digits, Nat.ofDigitChars_append, Nat.ofDigitChars_replicate_zero,
    Nat.ofDigitChars_ten_toDigits, Nat.mul_zero]
  exact Nat.mul_comm _ _

theorem isRunOf_placed : IsRunOf Char.isDigit d.placed :=
  ⟨List.length_pos_iff.mp (Nat.lt_of_le_of_lt (Nat.zero_le _) d.places_lt_length), d.placed_isDigit⟩

theorem isRunOf_whole : IsRunOf Char.isDigit d.whole := by
  have hlength := d.places_lt_length
  refine ⟨List.length_pos_iff.mp ?_, fun c hc => d.placed_isDigit c (List.mem_of_mem_take hc)⟩
  rw [whole, List.length_take]
  omega

theorem length_fraction : d.fraction.length = d.places := by
  have hlength := d.places_lt_length
  rw [fraction, List.length_drop]
  omega

/-- The digits of a decimal in their places are a numeral. -/
theorem isNumeral_plain : IsNumeral d.plain := by
  rw [plain_eq]
  split
  · exact .inl d.isRunOf_placed
  · exact .inr ⟨d.whole, d.fraction, d.isRunOf_whole, fun c hc => d.placed_isDigit c (List.mem_of_mem_drop hc), rfl⟩

/-- The value of the digits in their places is that of the decimal, with no exponent above zero. -/
theorem literalValue_plain : literalValue d.plain = ⟨d.coefficient * Nat.pow 10 d.exponent.toNat, -d.places⟩ := by
  have hvalue := d.ofDigitChars_placed
  rw [plain_eq]
  split
  · rename_i hplaces
    rw [literalValue, splitAtPoint_of_notMem (point_notMem d.placed_isDigit), hplaces]
    simp only [List.append_nil, hvalue, List.length_nil]
  · rw [literalValue, splitAtPoint_append (point_notMem d.isRunOf_whole.2)]
    simp only [d.length_fraction]
    rw [whole, fraction, List.take_append_drop, hvalue]

theorem nearest?_literalValue_plain : (literalValue d.plain).nearest? = d.nearest? := by
  have hup : (-(d.places : Int)).toNat = 0 := by omega
  have hdown : (- -(d.places : Int)).toNat = (-d.exponent).toNat := by
    rw [Int.neg_neg, Int.toNat_natCast, places]
  simp only [literalValue_plain, nearest?, hup, hdown, Nat.pow_eq, Nat.pow_zero, Nat.mul_one]

theorem readLiteral_plain {m : Magnitude} (h : d.nearest? = some m) : readLiteral d.plain = .ok m := by
  rw [readLiteral, if_pos (isLiteral_iff.mpr d.isNumeral_plain), nearest?_literalValue_plain, h]

end Decimal

/-! ### Texts of values -/

theorem Magnitude.readLiteral_plain_shortest (m : Magnitude) : readLiteral m.shortest.plain = .ok m :=
  m.shortest.readLiteral_plain m.nearest?_shortest

/-- A finite value is a magnitude or the negative of one, as its sign bit tells, and the text of that is written for it,
behind a minus sign if it is the negative. -/
theorem exists_valueText_eq (write : Decimal → List Char) {x : Float} (h : x.isFinite) :
    ∃ m : Magnitude, (isNegative x = false ∧ x = m.toFloat ∧ (valueText write x).toList = write m.shortest) ∨
      (isNegative x = true ∧ x = -m.toFloat ∧ (valueText write x).toList = '-' :: write m.shortest) := by
  obtain ⟨m, hm, hx⟩ := eq_of_isFinite h
  refine ⟨m, ?_⟩
  rw [valueText, hm, String.toList_ofList]
  cases hnegative : isNegative x with
  | false => exact .inl ⟨rfl, by simpa [hnegative] using hx, rfl⟩
  | true => exact .inr ⟨rfl, by simpa [hnegative] using hx, rfl⟩

/-- The text of a finite value has no other characters than those of decimals, and the minus sign. -/
theorem forall_mem_valueText {write : Decimal → List Char} {p : Char → Prop} (hwrite : ∀ d, ∀ c ∈ write d, p c)
    (hminus : p '-') {x : Float} (h : x.isFinite) : ∀ c ∈ (valueText write x).toList, p c := by
  obtain ⟨m, ⟨-, -, htext⟩ | ⟨-, -, htext⟩⟩ := exists_valueText_eq write h
  · rw [htext]
    exact hwrite m.shortest
  · rw [htext]
    exact List.forall_mem_cons.2 ⟨hminus, hwrite m.shortest⟩

theorem valueText_ne_nil {write : Decimal → List Char} (hwrite : ∀ d, write d ≠ []) {x : Float} (h : x.isFinite) :
    (valueText write x).toList ≠ [] := by
  obtain ⟨m, ⟨-, -, htext⟩ | ⟨-, -, htext⟩⟩ := exists_valueText_eq write h
  · rw [htext]
    exact hwrite m.shortest
  · rw [htext]
    exact List.cons_ne_nil _ _

/-- What is printed of a finite value is the numeral of its magnitude, behind a minus sign if it is the negative of
that. -/
theorem exists_plainText_eq {x : Float} (h : x.isFinite) :
    ∃ m : Magnitude, (isNegative x = false ∧ x = m.toFloat ∧ (plainText x).toList = m.shortest.plain) ∨
      (isNegative x = true ∧ x = -m.toFloat ∧ (plainText x).toList = '-' :: m.shortest.plain) :=
  exists_valueText_eq Decimal.plain h

theorem exists_isNumeral_plainText {x : Float} (h : x.isFinite) :
    ∃ l, IsNumeral l ∧ (plainText x).toList = if isNegative x then '-' :: l else l := by
  obtain ⟨m, hm⟩ := exists_plainText_eq h
  refine ⟨m.shortest.plain, m.shortest.isNumeral_plain, ?_⟩
  rcases hm with ⟨hsign, -, htext⟩ | ⟨hsign, -, htext⟩
  · simpa [hsign] using htext
  · simpa [hsign] using htext

end Calculator
