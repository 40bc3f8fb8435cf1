import Calculator.Number.Magnitude
import Mathlib.Tactic.Positivity
import Mathlib.Tactic.Ring

/-!
# Rounding to the nearest ordinal

A quotient lies between two neighbouring values, and `nearestOrdinal` takes the one on its side of their middle, and in
the middle the even one (`nearestOrdinal_between`).  As ordinals are ordered as the values they name,

* no value is nearer than the answer (`distance_nearestOrdinal_le`), and if another is as near, the answer is even
  (`nearestOrdinal_mod_two`);
* the answer is finite up to the middle between the last finite value and what would follow it
  (`nearestOrdinal_lt_infinityBits_iff`), which is `2 ^ 2098 - 2 ^ 2044` units (`units_infinityBits`).
-/

namespace Calculator

/-! ### The grid -/

theorem exponentBit_pos : 0 < exponentBit := by
  decide

theorem units_le_units {m n : Nat} (h : m ≤ n) : units m ≤ units n := by
  rcases Nat.lt_or_eq_of_le h with hlt | rfl
  · exact Nat.le_of_lt (units_lt_units hlt)
  · exact Nat.le_refl _

/-- A significand `r` of up to 53 bits, and of no fewer unless the exponent is the least, is a value; a carry to the next
exponent is no exception. -/
theorem units_mul_add {k r : Nat} (h : k = 0 ∨ exponentBit ≤ r) (hr : r ≤ 2 * exponentBit) :
    units (k * exponentBit + r) = r * 2 ^ k := by
  have hpos := exponentBit_pos
  by_cases hlow : r < exponentBit
  · obtain rfl : k = 0 := h.resolve_right (by omega)
    simp [units, hlow]
  · obtain ⟨f, rfl⟩ : ∃ f, r = exponentBit + f := ⟨r - exponentBit, by omega⟩
    have hfield : k * exponentBit + (exponentBit + f) = exponentBit * (k + 1) + f := by ring
    have hge : ¬ exponentBit * (k + 1) + f < exponentBit := by
      have := Nat.le_mul_of_pos_right exponentBit (Nat.succ_pos k)
      omega
    rw [hfield, units, if_neg hge, Nat.mul_add_mod, Nat.mul_add_div hpos, Nat.shiftLeft_eq]
    by_cases hcarry : f = exponentBit
    · subst hcarry
      rw [Nat.mod_self, Nat.div_self hpos, Nat.add_zero, Nat.add_sub_cancel, Nat.pow_succ]
      ring
    · have hf : f < exponentBit := by omega
      rw [Nat.mod_eq_of_lt hf, Nat.div_eq_of_lt hf, Nat.add_zero, Nat.add_sub_cancel]

/-- Below the first exponent bit, ordinals are values. -/
theorem units_of_lt {n : Nat} (h : n < exponentBit) : units n = n :=
  if_pos h

/-- An exponent field that is not zero puts an exponent bit before the fraction. -/
theorem units_succ_mul_add (k : Nat) {f : Nat} (h : f < exponentBit) :
    units ((k + 1) * exponentBit + f) = (exponentBit + f) * 2 ^ k := by
  rw [Nat.succ_mul, Nat.add_assoc]
  exact units_mul_add (.inr (Nat.le_add_right _ _)) (by omega)

section

variable (a : Nat) {b : Nat}

/-- The steps between values as large as the quotient are counted by a significand. -/
theorem significand_bounds (a b : Nat) :
    let k := (a / b).log2 - 52
    let m := a / (b <<< k)
    (k = 0 ∨ exponentBit ≤ m) ∧ m < 2 * exponentBit := by
  intro k m
  have hm : m = a / b / 2 ^ k := by
    rw [Nat.div_div_eq_div_mul, ← Nat.shiftLeft_eq]
  have htwo : 2 * exponentBit = 2 ^ 53 := by decide
  have hlt : a / b < 2 ^ ((a / b).log2 + 1) := Nat.lt_log2_self
  by_cases hk : (a / b).log2 ≤ 52
  · have hzero : k = 0 := Nat.sub_eq_zero_of_le hk
    have hpow : 2 ^ ((a / b).log2 + 1) ≤ 2 ^ 53 := Nat.pow_le_pow_right (by decide) (by omega)
    rw [hm, hzero, Nat.pow_zero, Nat.div_one]
    exact ⟨.inl rfl, by omega⟩
  · have hlog : (a / b).log2 = 52 + k := by omega
    have hle : 2 ^ (a / b).log2 ≤ a / b := Nat.log2_self_le (by rintro h; simp [h] at hk)
    rw [hlog, Nat.pow_add] at hle
    rw [hlog, Nat.add_right_comm, Nat.pow_add] at hlt
    refine ⟨.inr ?_, ?_⟩
    · rw [hm, Nat.le_div_iff_mul_le (Nat.two_pow_pos k)]
      exact hle
    · rw [hm, Nat.div_lt_iff_lt_mul (Nat.two_pow_pos k), htwo]
      exact hlt

/-- The quotient lies between two neighbours, and is rounded to the nearer one, or to the even one. -/
theorem nearestOrdinal_between (hb : 0 < b) :
    ∃ n middle, units n * b ≤ a ∧ a < units (n + 1) * b ∧ middle = units n * b + units (n + 1) * b ∧
      (nearestOrdinal a b = n ∧ (2 * a < middle ∨ 2 * a = middle ∧ n % 2 = 0) ∨
        nearestOrdinal a b = n + 1 ∧ (middle < 2 * a ∨ 2 * a = middle ∧ n % 2 = 1)) := by
  obtain ⟨hlow, hhigh⟩ := significand_bounds a b
  simp only [nearestOrdinal, roundHalfEven]
  generalize (a / b).log2 - 52 = k at hlow hhigh ⊢
  have hwidth : b <<< k = 2 ^ k * b := by rw [Nat.shiftLeft_eq, Nat.mul_comm]
  have hpos : 0 < b <<< k := by rw [hwidth]; positivity
  have hdiv := Nat.div_add_mod' a (b <<< k)
  have hmod := Nat.mod_lt a hpos
  generalize a / (b <<< k) = m at hlow hhigh hdiv ⊢
  -- the neighbours are `m` and `m + 1` steps of the width
  have hunits : units (k * exponentBit + m) * b = m * b <<< k := by
    rw [units_mul_add hlow (by omega), hwidth, Nat.mul_assoc]
  have hunits' : units (k * exponentBit + m + 1) * b = m * b <<< k + b <<< k := by
    rw [Nat.add_assoc, units_mul_add (hlow.imp_right (by omega)) (by omega), hwidth, Nat.mul_assoc, Nat.succ_mul]
  have heven : (k * exponentBit + m) % 2 = m % 2 := by
    unfold exponentBit
    omega
  refine ⟨k * exponentBit + m, _, by omega, by omega, rfl, ?_⟩
  rw [hunits, hunits', heven]
  split
  · exact .inl ⟨rfl, by omega⟩
  · exact .inr ⟨(Nat.add_assoc _ _ _).symm, by omega⟩

/-- How far a value is from the quotient, in `b`-ths of a unit. -/
def distance (a b j : Nat) : Nat :=
  (((units j * b : Nat) : Int) - a).natAbs

theorem distance_le_add (a b j : Nat) : distance a b j ≤ units j * b + a := by
  unfold distance
  omega

/-- No value is nearer than the answer. -/
theorem distance_nearestOrdinal_le (hb : 0 < b) (j : Nat) : distance a b (nearestOrdinal a b) ≤ distance a b j := by
  obtain ⟨n, middle, hle, hlt, hmiddle, hnearest⟩ := nearestOrdinal_between a hb
  have houtside : units j * b ≤ units n * b ∨ units (n + 1) * b ≤ units j * b := by
    rcases Nat.lt_or_ge n j with hj | hj
    · exact .inr (Nat.mul_le_mul_right b (units_le_units hj))
    · exact .inl (Nat.mul_le_mul_right b (units_le_units hj))
  unfold distance
  rcases hnearest with ⟨hn, hside⟩ | ⟨hn, hside⟩
  · rw [hn]
    omega
  · rw [hn]
    omega

/-- If another value is as near as the answer, the answer is even. -/
theorem nearestOrdinal_mod_two (hb : 0 < b) {j : Nat} (hj : j ≠ nearestOrdinal a b)
    (heq : distance a b (nearestOrdinal a b) = distance a b j) : nearestOrdinal a b % 2 = 0 := by
  obtain ⟨n, middle, hle, hlt, hmiddle, hnearest⟩ := nearestOrdinal_between a hb
  have houtside : (units j * b < units n * b ∨ units (n + 1) * b < units j * b) ∨ j = n ∨ j = n + 1 := by
    rcases Nat.lt_trichotomy j n with hlow | rfl | hhigh
    · exact .inl (.inl (Nat.mul_lt_mul_of_pos_right (units_lt_units hlow) hb))
    · exact .inr (.inl rfl)
    · rcases Nat.lt_or_eq_of_le (Nat.succ_le_of_lt hhigh) with hhigh | rfl
      · exact .inl (.inr (Nat.mul_lt_mul_of_pos_right (units_lt_units hhigh) hb))
      · exact .inr (.inr rfl)
  unfold distance at heq
  rcases hnearest with ⟨hn, hside⟩ | ⟨hn, hside⟩
  · rw [hn] at heq hj ⊢
    rcases houtside with houtside | rfl | rfl
    · omega
    · exact absurd rfl hj
    · omega
  · rw [hn] at heq hj ⊢
    rcases houtside with houtside | rfl | rfl
    · omega
    · omega
    · exact absurd rfl hj

/-- The negative of the answer is farther, unless the answer is zero. -/
theorem units_nearestOrdinal_eq_zero (hb : 0 < b)
    (h : distance a b (nearestOrdinal a b) = units (nearestOrdinal a b) * b + a) :
    units (nearestOrdinal a b) = 0 := by
  have hle := distance_nearestOrdinal_le a hb 0
  have hzero : units 0 = 0 := rfl
  unfold distance at h hle
  rw [hzero, Nat.zero_mul] at hle
  have hmul : units (nearestOrdinal a b) * b = 0 := by omega
  exact (Nat.mul_eq_zero.1 hmul).resolve_right (Nat.ne_of_gt hb)

/-- The answer is finite up to the middle between the last finite value and what would follow it; in the middle it is
not, as the last finite ordinal is odd. -/
theorem nearestOrdinal_lt_infinityBits_iff (hb : 0 < b) :
    nearestOrdinal a b < infinityBits ↔ 2 * a < units (infinityBits - 1) * b + units infinityBits * b := by
  obtain ⟨last, hlast⟩ : ∃ last, infinityBits = last + 1 := ⟨infinityBits - 1, by decide⟩
  have hodd : last % 2 = 1 := by
    unfold infinityBits at hlast
    omega
  obtain ⟨n, middle, hle, hlt, hmiddle, hnearest⟩ := nearestOrdinal_between a hb
  rw [hlast, Nat.add_sub_cancel]
  rcases Nat.lt_trichotomy n last with hn | rfl | hn
  · have hnext : units (n + 1) * b ≤ units last * b := Nat.mul_le_mul_right b (units_le_units hn)
    have hlast : units last * b ≤ units (last + 1) * b := Nat.mul_le_mul_right b (units_le_units (Nat.le_succ _))
    omega
  · omega
  · have hnext : units (last + 1) * b ≤ units n * b := Nat.mul_le_mul_right b (units_le_units hn)
    have hlast : units last * b ≤ units (last + 1) * b := Nat.mul_le_mul_right b (units_le_units (Nat.le_succ _))
    omega

end

/-- Twice the middle between the last finite value and what would follow it. -/
theorem units_infinityBits : units (infinityBits - 1) + units infinityBits = (2 ^ 54 - 1) * 2 ^ 2045 := by
  have hlast : infinityBits - 1 = 2045 * exponentBit + (2 * exponentBit - 1) := by decide
  have hnext : infinityBits = 2045 * exponentBit + 2 * exponentBit := by decide
  have hunits : units (infinityBits - 1) = (2 * exponentBit - 1) * 2 ^ 2045 := by
    rw [hlast]
    exact units_mul_add (.inr (by decide)) (Nat.sub_le _ _)
  have hunits' : units infinityBits = 2 * exponentBit * 2 ^ 2045 := by
    rw [hnext]
    exact units_mul_add (.inr (by decide)) (Nat.le_refl _)
  have hsum : 2 * exponentBit - 1 + 2 * exponentBit = 2 ^ 54 - 1 := by decide
  rw [hunits, hunits', ← Nat.add_mul, hsum]

end Calculator
