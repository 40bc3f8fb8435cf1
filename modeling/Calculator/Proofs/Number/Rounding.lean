import Calculator.Proofs.Number.ExactValue
import Calculator.Proofs.Number.PlainText
import Calculator.Syntax.Reading

/-!
# Number tokens are correctly rounded

The exact value of a numeral (`numeralValue`) is a quotient of units, and its nearest ordinal is that of the nearest
value: a value without a sign bit is as far away as its ordinal says, and one with it even farther
(`isNearest_toFloat`).  So the text of a number token is read as the nearest value, as long as that is finite
(`readNumber_rounds`).
-/

namespace Calculator

/-! ### From ordinals to values -/

section

variable {x : ℚ} {a b : Nat}

/-- How far a finite value is from `a / b` units, in `b`-ths of a unit: a negative value as far as the two are from zero
together. -/
theorem abs_exactValue_sub_mul (hb : 0 < b) (hx : x * 2 ^ unitPlaces * b = a) {w : Float} (hw : w.isFinite) :
    |exactValue w - x| * (2 ^ unitPlaces * b) =
      (if isNegative w then units (unsignedBits w) * b + a else distance a b (unsignedBits w) : Nat) := by
  have hscale : (0 : ℚ) < 2 ^ unitPlaces * b := by positivity
  have hscaled : (exactValue w - x) * (2 ^ unitPlaces * b) = signFactor w * (units (unsignedBits w) * b) - a := by
    rw [(exactValue_of_isFinite hw).1, ← hx]
    field_simp
  rw [← abs_of_pos hscale, ← abs_mul, hscaled, signFactor]
  split
  · have hneg : -1 * ((units (unsignedBits w) : ℚ) * b) - a = -((units (unsignedBits w) * b + a : Nat) : ℚ) := by
      push_cast
      ring
    rw [hneg, abs_neg, abs_of_nonneg (Nat.cast_nonneg _)]
  · rw [distance, Nat.cast_natAbs, Int.cast_abs, one_mul]
    push_cast
    rfl

/-- A magnitude is the nearest value if its ordinal is the nearest one. -/
theorem isNearest_toFloat (hb : 0 < b) (hx : x * 2 ^ unitPlaces * b = a) {m : Magnitude}
    (hm : m.ordinal = nearestOrdinal a b) : IsNearest x m.toFloat := by
  have hscale : (0 : ℚ) < 2 ^ unitPlaces * b := by positivity
  have hfinite := m.isFinite_toFloat
  have hordinal : unsignedBits m.toFloat = nearestOrdinal a b := by rw [unsignedBits_toFloat, hm]
  obtain ⟨hvalue, hparity⟩ := exactValue_of_isFinite hfinite
  have hdistance := abs_exactValue_sub_mul hb hx hfinite
  rw [m.isNegative_toFloat, if_neg Bool.false_ne_true] at hdistance
  rw [hordinal] at hvalue hparity hdistance
  refine ⟨hfinite, fun w hw => ?_, fun w hw hne htie => ?_⟩
  · refine le_of_mul_le_mul_right ?_ hscale
    have hle := distance_nearestOrdinal_le a hb (unsignedBits w)
    have hle' := distance_le_add a b (unsignedBits w)
    rw [hdistance, abs_exactValue_sub_mul hb hx hw, Nat.cast_le]
    split
    · exact hle.trans hle'
    · exact hle
  · -- also for a negative value, a tie is one of its ordinal
    have hle := distance_nearestOrdinal_le a hb (unsignedBits w)
    have hle' := distance_le_add a b (unsignedBits w)
    have htie' := congrArg (· * (2 ^ unitPlaces * (b : ℚ))) htie
    simp only [hdistance, abs_exactValue_sub_mul hb hx hw, Nat.cast_inj] at htie'
    rw [Nat.even_iff, hparity]
    by_cases hj : unsignedBits w = nearestOrdinal a b
    · -- the two differ in the sign alone, so that they are as near only if both are zero
      refine absurd ?_ hne
      rw [(exactValue_of_isFinite hw).1, hvalue, hj]
      cases hsign : isNegative w with
      | true =>
        rw [hsign, if_pos rfl, hj] at htie'
        rw [units_nearestOrdinal_eq_zero a hb htie'.symm]
        simp
      | false => rw [signFactor, signFactor, hsign, m.isNegative_toFloat]
    · refine nearestOrdinal_mod_two a hb hj ?_
      split at htie' <;> omega

/-- The nearest ordinal is finite below half a step past the greatest finite value. -/
theorem nearestOrdinal_lt_iff_lt (hb : 0 < b) (hx : x * 2 ^ unitPlaces * b = a) :
    nearestOrdinal a b < infinityBits ↔ x < 2 ^ 1024 - 2 ^ 970 := by
  have hscale : (0 : ℚ) < 2 * 2 ^ unitPlaces * b := by positivity
  have hpow : (2 : ℚ) ^ 2045 = 2 ^ 970 * (2 * 2 ^ unitPlaces) := by
    rw [← pow_succ', ← pow_add]
    rfl
  have hbound : (2 : ℚ) ^ 1024 - 2 ^ 970 = (2 ^ 54 - 1) * 2 ^ 970 := by
    rw [sub_mul, one_mul, ← pow_add]
  have hhalf : (((2 ^ 54 - 1) * 2 ^ 2045 * b : Nat) : ℚ) = (2 ^ 1024 - 2 ^ 970) * (2 * 2 ^ unitPlaces * b) := by
    have hodd : ((2 ^ 54 - 1 : Nat) : ℚ) = 2 ^ 54 - 1 := by norm_num
    rw [Nat.cast_mul, Nat.cast_mul, Nat.cast_pow, Nat.cast_ofNat, hodd, hpow, hbound]
    generalize (2 : ℚ) ^ 970 = strip
    ring
  have htwice : ((2 * a : Nat) : ℚ) = x * (2 * 2 ^ unitPlaces * b) := by
    rw [Nat.cast_mul, ← hx]
    push_cast
    ring
  have hcast : 2 * a < (2 ^ 54 - 1) * 2 ^ 2045 * b ↔
      ((2 * a : Nat) : ℚ) < (((2 ^ 54 - 1) * 2 ^ 2045 * b : Nat) : ℚ) := Nat.cast_lt.symm
  rw [nearestOrdinal_lt_infinityBits_iff a hb, ← Nat.add_mul, units_infinityBits, hcast, htwice, hhalf,
    mul_lt_mul_iff_left₀ hscale]

end

/-! ### Numerals -/

/-- The number that a numeral denotes: its digits before the point, and those behind it divided by the power of ten for
their places. -/
def numeralValue (text : List Char) : ℚ :=
  let (whole, fraction) := splitAtPoint text
  Nat.ofDigitChars 10 whole 0 + Nat.ofDigitChars 10 fraction 0 / 10 ^ fraction.length

/-- The value of a literal is rounded as a quotient of units. -/
theorem nearest?_literalValue (text : List Char) :
    ∃ a b : Nat, 0 < b ∧ numeralValue text * 2 ^ unitPlaces * b = a ∧
      (literalValue text).nearest? =
        if h : nearestOrdinal a b < infinityBits then some ⟨nearestOrdinal a b, h⟩ else none := by
  obtain ⟨⟨whole, fraction⟩, hsplit⟩ : ∃ parts, splitAtPoint text = parts := ⟨_, rfl⟩
  have hup : (-(fraction.length : Int)).toNat = 0 := by omega
  have hdown : (- -(fraction.length : Int)).toNat = fraction.length := by omega
  have hdigits : Nat.ofDigitChars 10 (whole ++ fraction) 0 =
      10 ^ fraction.length * Nat.ofDigitChars 10 whole 0 + Nat.ofDigitChars 10 fraction 0 := by
    rw [Nat.ofDigitChars_append, Nat.ofDigitChars_eq_ofDigitChars_zero]
  refine ⟨Nat.ofDigitChars 10 (whole ++ fraction) 0 <<< unitPlaces, 10 ^ fraction.length, by positivity, ?_, ?_⟩
  · rw [Nat.shiftLeft_eq, hdigits]
    simp only [numeralValue, hsplit]
    push_cast
    field_simp
  · simp only [literalValue, hsplit, Decimal.nearest?, Magnitude.nearest?, hup, hdown, Nat.pow_eq, Nat.pow_zero,
      Nat.mul_one]

/-! ### Number tokens -/

/-- A number token is malformed exactly if its text is no numeral.  A numeral is too large exactly from half a step
past the greatest finite value on, and below that it is read as the one nearest value without a sign bit. -/
theorem readNumber_rounds (text : String) (position : Nat) :
    let x := numeralValue text.toList
    (readNumber text position = .error (.invalidNumber text position) ↔ ¬ IsNumeral text.toList) ∧
      (readNumber text position = .error (.literalTooLarge text position) ↔
        IsNumeral text.toList ∧ 2 ^ 1024 - 2 ^ 970 ≤ x) ∧
      (IsNumeral text.toList → x < 2 ^ 1024 - 2 ^ 970 →
        ∃ v, readNumber text position = .ok v ∧ (IsNearest x v ∧ isNegative v = false) ∧
          ∀ w, IsNearest x w → isNegative w = false → w = v) := by
  intro x
  by_cases hnumeral : IsNumeral text.toList
  · obtain ⟨a, b, hb, hx, hnearest⟩ := nearest?_literalValue text.toList
    have hliteral := isLiteral_iff.2 hnumeral
    have hfinite := nearestOrdinal_lt_iff_lt hb hx
    by_cases hlt : nearestOrdinal a b < infinityBits
    · let m : Magnitude := ⟨nearestOrdinal a b, hlt⟩
      have hread : readNumber text position = .ok m.toFloat := by
        simp only [readNumber, readLiteral, if_pos hliteral, hnearest, dif_pos hlt, m]
      have hbelow : x < 2 ^ 1024 - 2 ^ 970 := hfinite.1 hlt
      have hm : IsNearest x m.toFloat := isNearest_toFloat hb hx rfl
      have hunique : ∀ w, IsNearest x w → isNegative w = false → w = m.toFloat := fun w hw hsign =>
        hw.unique hm (hsign.trans m.isNegative_toFloat.symm)
      rw [hread]
      refine ⟨iff_of_false (by simp) (not_not_intro hnumeral),
        iff_of_false (by simp) (fun h => absurd hbelow (not_lt.2 h.2)), fun _ _ => ?_⟩
      exact ⟨m.toFloat, rfl, ⟨hm, m.isNegative_toFloat⟩, hunique⟩
    · have hread : readNumber text position = .error (.literalTooLarge text position) := by
        simp only [readNumber, readLiteral, if_pos hliteral, hnearest, dif_neg hlt]
      have habove : ¬ x < 2 ^ 1024 - 2 ^ 970 := fun h => hlt (hfinite.2 h)
      rw [hread]
      exact ⟨iff_of_false (by simp) (not_not_intro hnumeral), iff_of_true rfl ⟨hnumeral, not_lt.1 habove⟩,
        fun _ h => absurd h habove⟩
  · have hread : readNumber text position = .error (.invalidNumber text position) := by
      simp only [readNumber, readLiteral, if_neg (fun h => hnumeral (isLiteral_iff.1 h))]
    rw [hread]
    exact ⟨iff_of_true rfl hnumeral, iff_of_false (by simp) (fun h => hnumeral h.1), fun h => absurd h hnumeral⟩

/-- Halfway between two values, `2 ^ 53 + 1` is read as the one with the even significand. -/
theorem readNumber_rounds_tie :
    let text := "9007199254740993.0"
    IsNumeral text.toList ∧ numeralValue text.toList = 2 ^ 53 + 1 ∧
      readNumber text 0 = .ok 9007199254740992 ∧ IsNearest (2 ^ 53 + 1) 9007199254740992 := by
  intro text
  have hnumeral : IsNumeral text.toList := isLiteral_iff.1 (by decide +kernel)
  have hvalue : numeralValue text.toList = 2 ^ 53 + 1 := by decide +kernel
  have hbelow : numeralValue text.toList < 2 ^ 1024 - 2 ^ 970 := by decide +kernel
  have hread : readNumber text 0 = .ok 9007199254740992 := by decide +kernel
  obtain ⟨v, hv, ⟨hnearest, -⟩, -⟩ := (readNumber_rounds text 0).2.2 hnumeral hbelow
  obtain rfl := Except.ok.inj (hread.symm.trans hv)
  exact ⟨hnumeral, hvalue, hread, hvalue ▸ hnearest⟩

end Calculator
