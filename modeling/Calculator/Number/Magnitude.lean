/-!
# Finite binary64 magnitudes

A finite binary64 value without its sign is named by its *ordinal*, its place in increasing order, which is also its
bit pattern.

* every magnitude is a whole number of *units* of `2 ^ (-1074)`, the smallest positive magnitude, and `units` is
  strictly increasing (`units_lt_units`);
* `nearestOrdinal a b` is the ordinal of the magnitude nearest to `a / b` units, a tie going to the even ordinal; a
  whole number of units that is a value is its own rounding (`nearestOrdinal_units`);
* `Magnitude.nearest?` rounds a quotient of natural numbers.  It has no answer when the ordinal is past the last
  finite one, that is from `2 ^ 1024 - 2 ^ 970` on.
-/

namespace Calculator

/-! ### Bit patterns -/

/-- The lowest bit of the exponent field, `2 ^ 52`: fractions lie below it. -/
def exponentBit : Nat := 0x10000000000000

/-- The bit pattern of infinity, `2047 * 2 ^ 52`: finite magnitudes lie below it. -/
def infinityBits : Nat := 0x7FF0000000000000

/-- The sign bit, `2 ^ 63`. -/
def signBit : Nat := 0x8000000000000000

/-! ### Units -/

/-- The binary places of a unit, which are as many as its decimal places. -/
def unitPlaces : Nat := 1074

/-- The value with ordinal `n`, in units.  Where the exponent field is not zero, an exponent bit stands before the
fraction, and each further step of the field doubles the value. -/
def units (n : Nat) : Nat :=
  if n < exponentBit then n else (exponentBit + n % exponentBit) <<< (n / exponentBit - 1)

/-- Rounds `a / b` to the nearest natural number, a tie to the even one. -/
def roundHalfEven (a b : Nat) : Nat :=
  if 2 * (a % b) < b ∨ (2 * (a % b) = b ∧ a / b % 2 = 0) then a / b else a / b + 1

/-- The ordinal of the value nearest to `a / b` units.  Values as large as that lie `2 ^ shift` units apart, where
`shift` leaves a significand of 53 bits. -/
def nearestOrdinal (a b : Nat) : Nat :=
  let shift := (a / b).log2 - 52
  shift * exponentBit + roundHalfEven a (b <<< shift)

private theorem units_succ (n : Nat) : units n < units (n + 1) := by
  simp only [units, exponentBit, Nat.shiftLeft_eq]
  by_cases h : n < 0x10000000000000
  · by_cases h' : n + 1 < 0x10000000000000
    · rw [if_pos h, if_pos h']
      exact Nat.lt_succ_self n
    · obtain rfl : n = 0x10000000000000 - 1 := by omega
      decide
  · have hpos := Nat.two_pow_pos (n / 0x10000000000000 - 1)
    rw [if_neg h, if_neg (by omega)]
    by_cases hc : n % 0x10000000000000 + 1 = 0x10000000000000
    · have hd : (n + 1) / 0x10000000000000 - 1 = (n / 0x10000000000000 - 1) + 1 := by omega
      have hm : (n + 1) % 0x10000000000000 = 0 := by omega
      rw [hd, hm, Nat.pow_succ, Nat.mul_comm (2 ^ _) 2, ← Nat.mul_assoc]
      exact Nat.mul_lt_mul_of_pos_right (by omega) hpos
    · have hd : (n + 1) / 0x10000000000000 = n / 0x10000000000000 := by omega
      have hm : (n + 1) % 0x10000000000000 = n % 0x10000000000000 + 1 := by omega
      rw [hd, hm]
      exact Nat.mul_lt_mul_of_pos_right (by omega) hpos

/-- Ordinals are ordered as the values they name. -/
theorem units_lt_units {m n : Nat} (h : m < n) : units m < units n := by
  induction n with
  | zero => omega
  | succ n ih =>
    rcases Nat.lt_succ_iff_lt_or_eq.1 h with h | rfl
    · exact Nat.lt_trans (ih h) (units_succ n)
    · exact units_succ m

theorem units_inj {m n : Nat} : units m = units n ↔ m = n := by
  refine ⟨fun h => ?_, fun h => h ▸ rfl⟩
  rcases Nat.lt_trichotomy m n with hlt | heq | hgt
  · exact absurd h (Nat.ne_of_lt (units_lt_units hlt))
  · exact heq
  · exact absurd h.symm (Nat.ne_of_lt (units_lt_units hgt))

private theorem roundHalfEven_mul (q : Nat) {b : Nat} (hb : 0 < b) : roundHalfEven (q * b) b = q := by
  simp [roundHalfEven, Nat.mul_div_cancel q hb, hb]

/-- A value that is a whole number of units is its own rounding. -/
theorem nearestOrdinal_units (n : Nat) {b : Nat} (hb : 0 < b) : nearestOrdinal (units n * b) b = n := by
  simp only [nearestOrdinal, Nat.mul_div_cancel _ hb]
  by_cases h : n < exponentBit
  · have hlog : n.log2 - 52 = 0 := by
      by_cases h0 : n = 0
      · subst h0; decide
      · have := (Nat.log2_lt h0 (k := 52)).2 (by unfold exponentBit at h; omega)
        omega
    simp only [units, if_pos h, hlog, Nat.shiftLeft_zero, roundHalfEven_mul n hb]
    omega
  · have hfield : 1 ≤ n / exponentBit := (Nat.le_div_iff_mul_le (by decide)).2 (by omega)
    have hmod := Nat.mod_lt n (show 0 < exponentBit by decide)
    have hdiv := Nat.div_add_mod n exponentBit
    have hu : units n = (exponentBit + n % exponentBit) * 2 ^ (n / exponentBit - 1) := by
      simp only [units, if_neg h, Nat.shiftLeft_eq]
    have hlog : (units n).log2 = 52 + (n / exponentBit - 1) := by
      have hpos := Nat.two_pow_pos (n / exponentBit - 1)
      have hne : units n ≠ 0 := by
        rw [hu]; exact Nat.mul_ne_zero (by unfold exponentBit; omega) (by omega)
      rw [Nat.log2_eq_iff hne, hu, Nat.pow_add, Nat.add_right_comm, Nat.pow_add]
      exact ⟨Nat.mul_le_mul_right _ (by unfold exponentBit; omega),
        Nat.mul_lt_mul_of_pos_right (by unfold exponentBit at hmod ⊢; omega) hpos⟩
    have hshift : (units n).log2 - 52 = n / exponentBit - 1 := by omega
    rw [hshift, Nat.shiftLeft_eq, hu, Nat.mul_assoc, Nat.mul_comm (2 ^ _) b,
      roundHalfEven_mul _ (Nat.mul_pos hb (Nat.two_pow_pos _)), Nat.sub_mul, Nat.mul_comm (n / exponentBit)]
    have : exponentBit * 1 ≤ exponentBit * (n / exponentBit) := Nat.mul_le_mul_left _ hfield
    omega

/-! ### Magnitudes -/

/-- A finite binary64 value without its sign. -/
structure Magnitude where
  ordinal : Nat
  ordinal_lt : ordinal < infinityBits
  deriving DecidableEq

namespace Magnitude

/-- The magnitude nearest to `num / den`, unless that quotient is too large. -/
def nearest? (num den : Nat) : Option Magnitude :=
  let n := nearestOrdinal (num <<< unitPlaces) den
  if h : n < infinityBits then some ⟨n, h⟩ else none

/-- The value with sign bit clear. -/
def toFloat (m : Magnitude) : Float :=
  Float.ofBits m.ordinal.toUInt64

/-- The magnitude of a value of either sign; infinities and NaN have none. -/
def ofFloat? (x : Float) : Option Magnitude :=
  let n := x.toBits.toNat % signBit
  if h : n < infinityBits then some ⟨n, h⟩ else none

end Magnitude

/-- Whether the sign bit is set. -/
def isNegative (x : Float) : Bool :=
  signBit ≤ x.toBits.toNat

end Calculator
