import Calculator.Proofs.Number.Bits
import Calculator.Proofs.Number.Nearest

/-!
# Exact values

A finite binary64 value is a rational number, its significand times a power of two (`exactValue`).  It is the value that
its bits name without the sign bit, times `1` or `-1` (`exactValue_of_isFinite`).

`IsNearest x v` says that `v` is the value nearest to `x`, a tie going to the even significand.  It holds of one value of
either sign at most (`IsNearest.unique`).
-/

namespace Calculator

open Float.Model UnpackedFloat

/-! ### Exact values -/

/-- The value of an unpacked number. -/
def unpackedValue : UnpackedFloat → ℚ
  | .finite sign m e _ => sign.apply m * 2 ^ e
  | _ => 0

/-- The significand of an unpacked number. -/
def unpackedSignificand : UnpackedFloat → Nat
  | .finite _ m _ _ => m
  | _ => 0

/-- The exact value of a finite binary64 value. -/
def exactValue (x : Float) : ℚ :=
  unpackedValue x.toModel.unpack

/-- The significand of a finite binary64 value, with the bit before the fraction where there is one. -/
def significand (x : Float) : Nat :=
  unpackedSignificand x.toModel.unpack

/-- What the sign bit makes of a value. -/
def signFactor (x : Float) : ℚ :=
  if isNegative x then -1 else 1

/-- The bits without the sign bit, for a finite value the ordinal of its magnitude. -/
def unsignedBits (x : Float) : Nat :=
  x.toBits.toNat % signBit

theorem unsignedBits_toFloat (m : Magnitude) : unsignedBits m.toFloat = m.ordinal := by
  rw [unsignedBits, m.toNat_toBits_toFloat, m.ordinal_mod_signBit]

private theorem apply_eq (s : Sign) (n : Int) : s.apply n = s.apply 1 * n := by
  cases s with
  | negative => exact Int.neg_eq_neg_one_mul n
  | positive => exact (Int.one_mul n).symm

namespace Fields

/-- Fields of a finite number are unpacked to the value that their bits name. -/
theorem unpack_bits (f : Fields) (h : f.exponent ≠ -1#11) :
    let n := f.exponent.toNat * exponentBit + f.fraction.toNat
    unpackedValue (UnpackedFloat.unpack .binary64 f.bits) = f.sign.apply 1 * (units n / 2 ^ unitPlaces) ∧
      unpackedSignificand (UnpackedFloat.unpack .binary64 f.bits) % 2 = n % 2 := by
  obtain ⟨sign, exponent, fraction, hnumber⟩ := f
  have hfraction : fraction.toNat < exponentBit := fraction.isLt
  simp only [bits, UnpackedFloat.unpack, unpackExponent_packComponents, unpackMantissa_packComponents,
    unpackSign_packComponents, Sign.ofBitVec_toBitVec]
  rw [if_neg h]
  split
  · rename_i hzero
    subst hzero
    rw [BitVec.toNat_zero, Nat.zero_mul, Nat.zero_add, units_of_lt hfraction]
    split
    · rename_i hzero
      simp [unpackedValue, unpackedSignificand, hzero]
    · have hplaces : ((0 : Nat) : Int) - (Format.binary64.exponentBias + 52) + 1 = -(unitPlaces : Int) := rfl
      refine ⟨?_, rfl⟩
      simp only [unpackedValue]
      rw [apply_eq]
      push_cast at hplaces ⊢
      rw [hplaces, zpow_neg, zpow_natCast, div_eq_mul_inv, mul_assoc]
  · -- a normal number: the exponent bit stands before the fraction
    rename_i hexponent
    obtain ⟨k, hk⟩ : ∃ k, exponent.toNat = k + 1 := by
      refine Nat.exists_eq_add_one.2 ?_
      simpa [Nat.pos_iff_ne_zero, BitVec.toNat_eq] using hexponent
    have hplaces : ((k + 1 : Nat) : Int) - (Format.binary64.exponentBias + 52) = k - unitPlaces := by
      show ((k + 1 : Nat) : Int) - 1075 = k - 1074
      omega
    have hmantissa : (1#1 ++ fraction).toNat = exponentBit + fraction.toNat := by
      rw [BitVec.toNat_append, ← Nat.shiftLeft_add_eq_or_of_lt fraction.isLt]
      rfl
    simp only [unpackedValue, unpackedSignificand]
    rw [hmantissa, hk]
    refine ⟨?_, ?_⟩
    · rw [apply_eq, units_succ_mul_add k hfraction]
      push_cast at hplaces ⊢
      rw [hplaces, zpow_sub₀ (by norm_num), zpow_natCast, zpow_natCast]
      ring
    · unfold exponentBit
      omega

/-- Without the sign bit, the other fields are left. -/
theorem toNat_bits_mod (f : Fields) :
    f.bits.toNat % signBit = f.exponent.toNat * exponentBit + f.fraction.toNat := by
  have hexponent : f.exponent.toNat < 2 ^ 11 := f.exponent.isLt
  have hfraction : f.fraction.toNat < 2 ^ 52 := f.fraction.isLt
  rw [toNat_bits]
  cases f.sign <;> simp only [signPart, signBit, exponentBit] <;> omega

theorem apply_sign (f : Fields) : f.sign.apply 1 = if signBit ≤ f.bits.toNat then -1 else 1 := by
  have hmod := f.toNat_bits_mod
  have hbits := f.toNat_bits
  have hlt : f.bits.toNat % signBit < signBit := Nat.mod_lt _ (by decide)
  cases hsign : f.sign with
  | negative =>
    have hle : signBit ≤ f.bits.toNat := by
      simp only [hsign, signPart] at hbits
      omega
    exact (if_pos hle).symm
  | positive =>
    have hnot : ¬ signBit ≤ f.bits.toNat := by
      simp only [hsign, signPart] at hbits
      omega
    exact (if_neg hnot).symm

end Fields

/-- A finite value is what its bits name, apart from the sign bit. -/
theorem exactValue_of_isFinite {x : Float} (h : x.isFinite) :
    exactValue x = signFactor x * (units (unsignedBits x) / 2 ^ unitPlaces) ∧
      significand x % 2 = unsignedBits x % 2 := by
  have hlt := isFinite_iff.1 h
  obtain ⟨m⟩ := x
  rcases exists_fields m with ⟨f, hf⟩ | rfl
  · have hbits : (Float.ofModel m).toBits.toNat = f.bits.toNat := congrArg BitVec.toNat hf
    have hunpack : m.unpack = UnpackedFloat.unpack .binary64 f.bits := congrArg (UnpackedFloat.unpack .binary64) hf
    have hexponent : f.exponent ≠ -1#11 := by
      rw [hbits] at hlt
      have hones := (Fields.toNat_mod_lt_iff f.bits).1 hlt
      rwa [Fields.bits, unpackExponent_packComponents] at hones
    have hsign : signFactor (Float.ofModel m) = f.sign.apply 1 := by
      rw [f.apply_sign, signFactor, isNegative, hbits]
      push_cast
      simp only [decide_eq_true_eq]
    have hfields := f.unpack_bits hexponent
    rw [← f.toNat_bits_mod, ← hbits, ← unsignedBits, ← hunpack, ← hsign] at hfields
    exact hfields
  · revert h
    decide

section

variable {v w : Float}

theorem eq_of_unsignedBits (hbits : unsignedBits v = unsignedBits w) (hsign : isNegative v = isNegative w) : v = w := by
  have hv : v.toBits.toNat < 2 * signBit := v.toBits.toNat_lt
  have hw : w.toBits.toNat < 2 * signBit := w.toBits.toNat_lt
  refine Float.toBits_inj.1 (UInt64.toNat_inj.1 ?_)
  unfold unsignedBits at hbits
  rw [isNegative, isNegative, decide_eq_decide] at hsign
  unfold signBit at *
  omega

theorem exists_unsignedBits {n : Nat} (hn : n < infinityBits) (negative : Bool) :
    ∃ x : Float, x.isFinite ∧ unsignedBits x = n ∧ isNegative x = negative := by
  let m : Magnitude := ⟨n, hn⟩
  cases negative with
  | false => exact ⟨m.toFloat, m.isFinite_toFloat, unsignedBits_toFloat m, m.isNegative_toFloat⟩
  | true =>
    have hbits : (-m.toFloat).toBits.toNat = signBit + n := m.toNat_toBits_neg_toFloat
    have hunsigned : unsignedBits (-m.toFloat) = n := by
      rw [unsignedBits, hbits, Nat.add_mod_left]
      exact m.ordinal_mod_signBit
    refine ⟨-m.toFloat, isFinite_iff.2 ?_, hunsigned, ?_⟩
    · rw [← unsignedBits, hunsigned]
      exact hn
    · rw [isNegative, hbits]
      simp

/-- Of values with the same sign, the one with more bits is farther from zero. -/
theorem exactValue_lt (hv : v.isFinite) (hw : w.isFinite) (hsign : isNegative v = isNegative w)
    (h : unsignedBits v < unsignedBits w) :
    if isNegative w then exactValue w < exactValue v else exactValue v < exactValue w := by
  have hunits : (units (unsignedBits v) : ℚ) / 2 ^ unitPlaces < units (unsignedBits w) / 2 ^ unitPlaces :=
    div_lt_div_of_pos_right (Nat.cast_lt.2 (units_lt_units h)) (by positivity)
  rw [(exactValue_of_isFinite hv).1, (exactValue_of_isFinite hw).1, signFactor, signFactor, hsign]
  cases isNegative w with
  | true => simpa using hunits
  | false => simpa using hunits

end

/-! ### Nearest values -/

/-- The value is finite, no finite value is nearer to `x`, and if another one is as near, this one has the even
significand. -/
structure IsNearest (x : ℚ) (v : Float) : Prop where
  isFinite : v.isFinite
  abs_sub_le (w : Float) (hw : w.isFinite) : |exactValue v - x| ≤ |exactValue w - x|
  even_of_tie (w : Float) (hw : w.isFinite) (hne : exactValue w ≠ exactValue v)
    (htie : |exactValue w - x| = |exactValue v - x|) : Even (significand v)

section

variable {x : ℚ} {v w : Float}

private theorem abs_sub_lt_of_between {p q r x : ℚ} (hpq : p < q) (hqr : q < r) (h : |p - x| = |r - x|) :
    |q - x| < |p - x| := by
  rcases abs_eq_abs.1 h with hsame | hmiddle
  · linarith
  · have hpx : p - x < 0 := by linarith
    rw [abs_of_neg hpx, abs_lt]
    constructor <;> linarith

/-- Of two different values with the same sign, only one is the nearest. -/
theorem IsNearest.unsignedBits_le (hv : IsNearest x v) (hw : IsNearest x w) (hsign : isNegative v = isNegative w) :
    unsignedBits w ≤ unsignedBits v := by
  by_contra hlt
  rw [not_le] at hlt
  have hlast : unsignedBits w < infinityBits := isFinite_iff.1 hw.isFinite
  have htie : |exactValue v - x| = |exactValue w - x| :=
    le_antisymm (hv.abs_sub_le w hw.isFinite) (hw.abs_sub_le v hv.isFinite)
  have hne : exactValue v ≠ exactValue w := by
    have hvalues := exactValue_lt hv.isFinite hw.isFinite hsign hlt
    split at hvalues
    · exact hvalues.ne'
    · exact hvalues.ne
  have heven := Nat.even_iff.1 (hv.even_of_tie w hw.isFinite hne.symm htie.symm)
  have heven' := Nat.even_iff.1 (hw.even_of_tie v hv.isFinite hne htie)
  rw [(exactValue_of_isFinite hv.isFinite).2] at heven
  rw [(exactValue_of_isFinite hw.isFinite).2] at heven'
  -- the next ordinal is odd, so its value lies between the two and is nearer
  obtain ⟨z, hz, hbits, hnegative⟩ : ∃ z : Float, z.isFinite ∧ unsignedBits z = unsignedBits v + 1 ∧
      isNegative z = isNegative w := exists_unsignedBits (by omega) (isNegative w)
  have hbelow := exactValue_lt hv.isFinite hz (hsign.trans hnegative.symm) (by omega)
  have habove := exactValue_lt hz hw.isFinite hnegative (by omega)
  have hle := hv.abs_sub_le z hz
  have hle' := hw.abs_sub_le z hz
  rw [hnegative] at hbelow
  split at hbelow
  · rename_i hsign
    rw [if_pos hsign] at habove
    exact absurd (abs_sub_lt_of_between habove hbelow htie.symm) (not_lt.2 hle')
  · rename_i hsign
    rw [if_neg hsign] at habove
    exact absurd (abs_sub_lt_of_between hbelow habove htie) (not_lt.2 hle)

/-- At most one value of either sign is the nearest. -/
theorem IsNearest.unique (hv : IsNearest x v) (hw : IsNearest x w) (hsign : isNegative v = isNegative w) : v = w :=
  eq_of_unsignedBits (le_antisymm (hw.unsignedBits_le hv hsign.symm) (hv.unsignedBits_le hw hsign)) hsign

end

end Calculator
