import Calculator.Proofs.Number.PlainText
import Calculator.Proofs.Token.Append

/-!
# Detailed texts are faithful

A decimal is written in detail in one of two ways, which the letter `e` tells apart.

* With an exponent, the text has all digits and the exponent of the decimal itself (`scientific_inj`).
* Without one, it is a numeral of the same value (`detailed_cases`): where `.0` is added, a quotient is taken in
  larger terms, and that is rounded alike (`nearest?_mul_mul`).

As the shortest decimal of a magnitude reads back, two magnitudes have different texts (`detailed_shortest_inj`), and so
have two finite values, also if they differ in the sign alone (`detailedText_inj`).
-/

namespace Calculator

/-! ### Quotients in larger terms -/

section

variable (a b : Nat) {k : Nat}

theorem roundHalfEven_mul_mul (hk : 0 < k) : roundHalfEven (a * k) (b * k) = roundHalfEven a b := by
  have hlt : 2 * (a % b * k) < b * k ↔ 2 * (a % b) < b := by
    rw [← Nat.mul_assoc, Nat.mul_lt_mul_right hk]
  have heq : 2 * (a % b * k) = b * k ↔ 2 * (a % b) = b := by
    rw [← Nat.mul_assoc, Nat.mul_left_inj (Nat.ne_of_gt hk)]
  simp only [roundHalfEven, Nat.mul_div_mul_right _ _ hk, Nat.mul_mod_mul_right, hlt, heq]

theorem nearestOrdinal_mul_mul (hk : 0 < k) : nearestOrdinal (a * k) (b * k) = nearestOrdinal a b := by
  have hshift (s : Nat) : (b * k) <<< s = (b <<< s) * k := by
    rw [Nat.shiftLeft_eq, Nat.shiftLeft_eq, Nat.mul_right_comm]
  simp only [nearestOrdinal, Nat.mul_div_mul_right _ _ hk, hshift, roundHalfEven_mul_mul _ _ hk]

theorem nearest?_mul_mul (hk : 0 < k) : Magnitude.nearest? (a * k) (b * k) = Magnitude.nearest? a b := by
  have hshift : (a * k) <<< unitPlaces = (a <<< unitPlaces) * k := by
    rw [Nat.shiftLeft_eq, Nat.shiftLeft_eq, Nat.mul_right_comm]
  simp only [Magnitude.nearest?, hshift, nearestOrdinal_mul_mul _ _ hk]

end

/-- Two lists that part at the first of two marks are equal in all their parts. -/
theorem eq_of_append_cons {α : Type*} {x x' z z' : List α} {a a' : α} (h : x ++ a :: z = x' ++ a' :: z') (ha : a ∉ x')
    (ha' : a' ∉ x) : x = x' ∧ a = a' ∧ z = z' := by
  rcases List.append_eq_append_iff.1 h with ⟨y, rfl, hy⟩ | ⟨y, rfl, hy⟩
  · cases y with
    | nil => simpa using hy
    | cons b y =>
      obtain rfl : a = b := (List.cons.inj hy).1
      exact absurd (by simp) ha
  · cases y with
    | nil =>
      obtain ⟨rfl, rfl⟩ := List.cons.inj hy
      simp
    | cons b y =>
      obtain rfl : a' = b := (List.cons.inj hy).1
      exact absurd (by simp) ha'

theorem IsNumeral.e_notMem {l : List Char} (h : IsNumeral l) : 'e' ∉ l := by
  intro he
  rcases h.forall_mem 'e' he with hc | hc
  · exact absurd hc (by decide)
  · exact absurd hc (by decide)

namespace Decimal

/-! ### Texts with an exponent -/

/-- The digits, with a point behind the first one if others follow. -/
def mantissa (d : Decimal) : List Char :=
  d.digits.take 1 ++ if (d.digits.drop 1).isEmpty then [] else '.' :: d.digits.drop 1

theorem scientific_eq (d : Decimal) :
    d.scientific = d.mantissa ++ 'e' :: (toString d.leadingExponent).toList :=
  rfl

variable (d : Decimal)

theorem digits_isDigit : ∀ c ∈ d.digits, c.isDigit :=
  fun _ hc => Nat.isDigit_of_mem_toDigits (by decide) (by decide) hc

/-- The digits of the mantissa are those of the decimal. -/
theorem filter_mantissa : d.mantissa.filter Char.isDigit = d.digits := by
  have hfirst : (d.digits.take 1).filter Char.isDigit = d.digits.take 1 :=
    List.filter_eq_self.2 fun c hc => d.digits_isDigit c (List.mem_of_mem_take hc)
  have hrest : (d.digits.drop 1).filter Char.isDigit = d.digits.drop 1 :=
    List.filter_eq_self.2 fun c hc => d.digits_isDigit c (List.mem_of_mem_drop hc)
  have hpoint : ¬('.').isDigit := by decide
  rw [mantissa, List.filter_append, hfirst]
  split
  · rename_i hempty
    rw [List.filter_nil, List.append_nil]
    simpa [List.isEmpty_iff.1 hempty] using List.take_append_drop 1 d.digits
  · rw [List.filter_cons_of_neg hpoint, hrest, List.take_append_drop]

theorem mem_mantissa {c : Char} (h : c ∈ d.mantissa) : c.isDigit ∨ c = '.' := by
  rw [mantissa] at h
  rcases List.mem_append.1 h with hc | hc
  · exact .inl (d.digits_isDigit c (List.mem_of_mem_take hc))
  · split at hc
    · cases hc
    · rcases List.mem_cons.1 hc with rfl | hc
      · exact .inr rfl
      · exact .inl (d.digits_isDigit c (List.mem_of_mem_drop hc))

theorem e_notMem_mantissa : 'e' ∉ d.mantissa := by
  intro h
  rcases d.mem_mantissa h with hc | hc
  · exact absurd hc (by decide)
  · exact absurd hc (by decide)

/-- A decimal can be recovered from its text with an exponent. -/
theorem scientific_inj {d e : Decimal} (h : d.scientific = e.scientific) : d = e := by
  rw [scientific_eq, scientific_eq] at h
  obtain ⟨hmantissa, -, hexponent⟩ := eq_of_append_cons h e.e_notMem_mantissa d.e_notMem_mantissa
  have hdigits : d.digits = e.digits := by rw [← d.filter_mantissa, hmantissa, e.filter_mantissa]
  have hcoefficient : d.coefficient = e.coefficient := by
    have hvalue := congrArg (Nat.ofDigitChars 10 · 0) hdigits
    simpa only [digits, Nat.ofDigitChars_ten_toDigits] using hvalue
  have hleading : d.leadingExponent = e.leadingExponent := by
    rw [String.toList_inj, Int.toString_eq_repr, Int.toString_eq_repr] at hexponent
    exact Int.repr_inj.1 hexponent
  obtain ⟨coefficient, exponent⟩ := d
  obtain ⟨coefficient', exponent'⟩ := e
  obtain rfl : coefficient = coefficient' := hcoefficient
  have hexponents : exponent = exponent' := by
    simp only [leadingExponent, digits] at hleading
    omega
  rw [hexponents]

/-! ### Texts without one -/

/-- With `.0` behind them, digits are a numeral of the same value. -/
theorem isNumeral_concat_zero {l : List Char} (h : IsRunOf Char.isDigit l) : IsNumeral (l ++ ['.', '0']) :=
  .inr ⟨l, ['0'], h, by simp, rfl⟩

theorem nearest?_literalValue_concat_zero {l : List Char} (h : IsRunOf Char.isDigit l) :
    (literalValue (l ++ ['.', '0'])).nearest? = (literalValue l).nearest? := by
  have hdigits : Nat.ofDigitChars 10 (l ++ ['0']) 0 = Nat.ofDigitChars 10 l 0 * 10 := by
    rw [Nat.ofDigitChars_append]
    exact Nat.mul_comm _ _
  have htenth := nearest?_mul_mul (Nat.ofDigitChars 10 l 0) 1 (k := 10) (by decide)
  rw [literalValue, splitAtPoint_append (point_notMem h.2), literalValue, splitAtPoint_of_notMem (point_notMem h.2)]
  simpa [nearest?, hdigits] using htenth

/-- A decimal is written with its exponent or as a numeral of its value. -/
theorem detailed_cases :
    d.detailed = d.scientific ∨ IsNumeral d.detailed ∧ (literalValue d.detailed).nearest? = d.nearest? := by
  rw [detailed]
  split
  · exact .inl rfl
  · refine .inr ?_
    split
    · rename_i hexponent
      have hplain : d.plain = d.placed := by
        rw [plain_eq, if_pos]
        rw [places]
        omega
      rw [← d.nearest?_literalValue_plain, hplain]
      exact ⟨isNumeral_concat_zero d.isRunOf_placed, nearest?_literalValue_concat_zero d.isRunOf_placed⟩
    · exact ⟨d.isNumeral_plain, d.nearest?_literalValue_plain⟩

theorem e_mem_scientific : 'e' ∈ d.scientific := by
  rw [scientific_eq]
  simp

/-- Decimals with the same text round alike. -/
theorem nearest?_of_detailed {d e : Decimal} (h : d.detailed = e.detailed) : d.nearest? = e.nearest? := by
  rcases d.detailed_cases with hd | ⟨hnumeral, hd⟩
  · rcases e.detailed_cases with he | ⟨hnumeral, he⟩
    · rw [scientific_inj (hd.symm.trans (h.trans he))]
    · rw [← h, hd] at hnumeral
      exact absurd d.e_mem_scientific hnumeral.e_notMem
  · rcases e.detailed_cases with he | ⟨-, he⟩
    · rw [h, he] at hnumeral
      exact absurd e.e_mem_scientific hnumeral.e_notMem
    · rw [← hd, ← he, h]

/-! ### Characters -/

theorem mem_toString {i : Int} {c : Char} (h : c ∈ (toString i).toList) : c.isDigit ∨ c = '-' := by
  have hrepr {n : Nat} (hc : c ∈ n.repr.toList) : c.isDigit := by
    rw [Nat.toList_repr] at hc
    exact Nat.isDigit_of_mem_toDigits (by decide) (by decide) hc
  rw [Int.toString_eq_repr, Int.repr_eq_if] at h
  split at h
  · exact .inl (hrepr h)
  · rw [String.toList_append] at h
    rcases List.mem_append.1 h with hc | hc
    · exact .inr (by simpa using hc)
    · exact .inl (hrepr hc)

theorem mem_detailed {c : Char} (h : c ∈ d.detailed) : c.isDigit ∨ c = '.' ∨ c = 'e' ∨ c = '-' := by
  rcases d.detailed_cases with hd | ⟨hnumeral, -⟩
  · rw [hd, scientific_eq] at h
    rcases List.mem_append.1 h with hc | hc
    · exact (d.mem_mantissa hc).imp_right .inl
    · rcases List.mem_cons.1 hc with rfl | hc
      · exact .inr (.inr (.inl rfl))
      · exact (mem_toString hc).imp_right fun hc => .inr (.inr hc)
  · exact (hnumeral.forall_mem c h).imp_right .inl

theorem exists_detailed_eq_cons : ∃ c l, d.detailed = c :: l ∧ c.isDigit := by
  rcases d.detailed_cases with hd | ⟨hnumeral, -⟩
  · have hne : d.digits ≠ [] := Nat.toDigits_ne_nil
    obtain ⟨c, l, hdigits⟩ := List.exists_cons_of_ne_nil hne
    have hc : c.isDigit := d.digits_isDigit c (by simp [hdigits])
    rw [hd, scientific_eq, mantissa, hdigits]
    exact ⟨c, _, rfl, hc⟩
  · obtain ⟨c, l, hl⟩ := List.exists_cons_of_ne_nil hnumeral.ne_nil
    rw [hl] at hnumeral ⊢
    exact ⟨c, l, rfl, hnumeral.head⟩

end Decimal

/-! ### Texts of values -/

/-- Magnitudes have different texts. -/
theorem Magnitude.detailed_shortest_inj {m n : Magnitude} (h : m.shortest.detailed = n.shortest.detailed) : m = n := by
  have hnearest := Decimal.nearest?_of_detailed h
  rw [m.nearest?_shortest, n.nearest?_shortest] at hnearest
  exact Option.some.inj hnearest

section

variable {x y : Float}

theorem mem_detailedText (h : x.isFinite) {c : Char} (hc : c ∈ (detailedText x).toList) :
    c.isDigit ∨ c = '.' ∨ c = 'e' ∨ c = '-' :=
  forall_mem_valueText (fun d _ => d.mem_detailed) (.inr (.inr (.inr rfl))) h c hc

theorem detailedText_ne_nil (h : x.isFinite) : (detailedText x).toList ≠ [] := by
  refine valueText_ne_nil (fun d => ?_) h
  obtain ⟨c, l, hdetailed, -⟩ := d.exists_detailed_eq_cons
  rw [hdetailed]
  exact List.cons_ne_nil c l

theorem detailed_ne_minus {d : Decimal} {l : List Char} : d.detailed ≠ '-' :: l := by
  intro h
  obtain ⟨c, l', hdetailed, hc⟩ := d.exists_detailed_eq_cons
  obtain ⟨rfl, -⟩ := List.cons.inj (hdetailed.symm.trans h)
  exact absurd hc (by decide)

/-- Finite values have different texts. -/
theorem detailedText_inj (hx : x.isFinite) (hy : y.isFinite) (h : detailedText x = detailedText y) : x = y := by
  have htexts := congrArg String.toList h
  obtain ⟨m, hm⟩ := exists_valueText_eq Decimal.detailed hx
  obtain ⟨n, hn⟩ := exists_valueText_eq Decimal.detailed hy
  rw [detailedText] at htexts
  rcases hm with ⟨-, rfl, hm⟩ | ⟨-, rfl, hm⟩ <;> rcases hn with ⟨-, rfl, hn⟩ | ⟨-, rfl, hn⟩ <;> rw [hm, hn] at htexts
  · rw [Magnitude.detailed_shortest_inj htexts]
  · exact absurd htexts detailed_ne_minus
  · exact absurd htexts.symm detailed_ne_minus
  · rw [Magnitude.detailed_shortest_inj (List.cons.inj htexts).2]

end

end Calculator
