import Calculator.Number.Magnitude
import Mathlib

/-!
# Bits of binary64 values

A binary64 value that is no NaN has three fields, its sign, its exponent field and its fraction.  `Fields` make a valid
pattern of bits (`Fields.valid`), so that they are unpacked and packed without loss, and only the sign of a value
changes when it is negated (`Fields.neg_unpack`).  NaN has one pattern of bits and no sign.

* negating commutes with packing and unpacking (`neg_pack`, `unpack_neg`);
* a value is finite exactly if its bits, the sign bit aside, lie below those of infinity (`isFinite_iff`), and it is
  then its magnitude or the negative of it (`eq_of_isFinite`).
-/

namespace Calculator

open Float.Model UnpackedFloat

/-! ### Fields -/

/-- The fields of a value that is no NaN: where the exponent field is all ones, the value is infinite and has no
fraction. -/
structure Fields where
  sign : Sign
  exponent : BitVec 11
  fraction : BitVec 52
  fraction_eq_zero : exponent = -1#11 → fraction = 0#52

namespace Fields

/-- All fields in one. -/
def bits (f : Fields) : BitVec 64 :=
  packComponents .binary64 f.sign f.exponent f.fraction

/-- The same fields but for the sign. -/
def neg (f : Fields) : Fields :=
  { f with sign := -f.sign }

theorem valid (f : Fields) : Format.Valid .binary64 f.bits := by
  refine ⟨fun hones hfraction => absurd ?_ hfraction⟩
  rw [bits, unpackExponent_packComponents] at hones
  rw [bits, unpackMantissa_packComponents]
  exact f.fraction_eq_zero hones

/-- Negating a value changes its sign field. -/
theorem neg_unpack (f : Fields) :
    (UnpackedFloat.unpack .binary64 f.bits).neg = UnpackedFloat.unpack .binary64 f.neg.bits := by
  obtain ⟨sign, exponent, fraction, hnumber⟩ := f
  simp only [bits, neg, UnpackedFloat.unpack, unpackExponent_packComponents, unpackMantissa_packComponents,
    unpackSign_packComponents, Sign.ofBitVec_toBitVec]
  split
  · rename_i hones
    rw [if_pos (hnumber hones), if_pos (hnumber hones)]
    rfl
  split
  · split <;> rfl
  · rfl

theorem isFinite_unpack (f : Fields) :
    (UnpackedFloat.unpack .binary64 f.bits).isFinite ↔ @unpackExponent .binary64 f.bits ≠ -1#11 := by
  obtain ⟨sign, exponent, fraction, hnumber⟩ := f
  simp only [bits, UnpackedFloat.unpack, unpackExponent_packComponents, unpackMantissa_packComponents]
  split
  · rename_i hones
    simp [hones, hnumber hones, UnpackedFloat.isFinite]
  · split
    · split <;> simp_all [UnpackedFloat.isFinite]
    · simp_all [UnpackedFloat.isFinite]

/-- What is packed is NaN, or has fields that depend on its sign only in the sign field. -/
theorem exists_of_pack {u : UnpackedFloat} (h : u ≠ .notANumber) :
    ∃ f : Fields, UnpackedFloat.pack .binary64 u = f.bits ∧ UnpackedFloat.pack .binary64 u.neg = f.neg.bits := by
  cases u with
  | notANumber => exact absurd rfl h
  | infinity sign => exact ⟨⟨sign, _, _, fun _ => rfl⟩, rfl, rfl⟩
  | zero sign => exact ⟨⟨sign, _, _, fun _ => rfl⟩, rfl, rfl⟩
  | finite sign m e hm =>
    simp only [UnpackedFloat.neg, UnpackedFloat.pack]
    split
    · exact ⟨⟨sign, _, _, fun _ => rfl⟩, rfl, rfl⟩
    split
    · rename_i hlarge _
      refine ⟨⟨sign, _, _, fun hones => ?_⟩, rfl, rfl⟩
      have := congrArg BitVec.toNat hones
      simp at this
      omega
    · exact ⟨⟨sign, _, _, fun hzero => absurd hzero (by decide)⟩, rfl, rfl⟩

/-- Bits are those of fields, or their exponent field is all ones and a fraction stands behind it. -/
theorem exists_of_bits (b : BitVec 64) :
    (∃ f : Fields, b = f.bits) ∨
      @unpackExponent .binary64 b = -1#11 ∧ @unpackMantissa .binary64 b ≠ 0#52 := by
  by_cases h : @unpackExponent .binary64 b = -1#11 → @unpackMantissa .binary64 b = 0#52
  · have hparts := @packComponents_unpackSign_unpackExponent_unpackMantissa .binary64 b
    exact .inl ⟨⟨_, _, _, h⟩, hparts.symm⟩
  · exact .inr (Classical.not_imp.1 h)

/-! ### Bits as numbers -/

/-- What the sign contributes to the bits. -/
def signPart : Sign → Nat
  | .negative => signBit
  | .positive => 0

private theorem toNat_packComponents (sign : Sign) (exponent : BitVec 11) (fraction : BitVec 52) :
    (packComponents .binary64 sign exponent fraction).toNat =
      signPart sign + exponent.toNat * exponentBit + fraction.toNat := by
  have hexponent := exponent.isLt
  have hfraction := fraction.isLt
  simp only [packComponents]
  rw [BitVec.toNat_append, BitVec.toNat_append, ← Nat.shiftLeft_add_eq_or_of_lt fraction.isLt,
    ← Nat.shiftLeft_add_eq_or_of_lt exponent.isLt]
  cases sign <;>
    simp only [Sign.toBitVec, signPart, signBit, exponentBit, Nat.shiftLeft_eq, BitVec.toNat_ofNat] <;> omega

theorem toNat_bits (f : Fields) :
    f.bits.toNat = signPart f.sign + f.exponent.toNat * exponentBit + f.fraction.toNat :=
  toNat_packComponents f.sign f.exponent f.fraction

/-- Without the sign bit, bits lie below those of infinity exactly if the exponent field is not all ones. -/
theorem toNat_mod_lt_iff (b : BitVec 64) :
    b.toNat % signBit < infinityBits ↔ @unpackExponent .binary64 b ≠ -1#11 := by
  have hones : (-1#11).toNat = 2047 := rfl
  rw [← BitVec.toNat_ne_iff_ne, hones]
  conv =>
    lhs
    rw [← @packComponents_unpackSign_unpackExponent_unpackMantissa .binary64 b, toNat_packComponents]
  generalize @unpackExponent .binary64 b = exponent
  generalize @unpackMantissa .binary64 b = fraction
  have hexponent : exponent.toNat < 2 ^ 11 := exponent.isLt
  have hfraction : fraction.toNat < 2 ^ 52 := fraction.isLt
  cases Sign.ofBitVec (@unpackSign .binary64 b) <;>
    simp only [signPart, signBit, exponentBit, infinityBits] <;> omega

/-- The sign bit is what negating changes. -/
theorem toNat_neg_bits {f : Fields} (h : f.bits.toNat < signBit) : f.neg.bits.toNat = signBit + f.bits.toNat := by
  obtain ⟨sign, exponent, fraction, hnumber⟩ := f
  have hexponent := exponent.isLt
  have hfraction := fraction.isLt
  simp only [bits, neg, toNat_packComponents] at h ⊢
  cases sign with
  | negative =>
    simp only [signPart] at h
    omega
  | positive =>
    have hsign : signPart (-Sign.positive) = signBit := rfl
    rw [hsign, signPart]
    omega

end Fields

/-! ### Values -/

/-- A value has fields or is NaN. -/
theorem exists_fields (m : Float.Model) :
    (∃ f : Fields, m.toBits.toBitVec = f.bits) ∨ m = Float.Model.pack .notANumber := by
  obtain ⟨bits, hvalid⟩ := m
  rcases Fields.exists_of_bits bits.toBitVec with hf | ⟨hones, hfraction⟩
  · exact .inl hf
  · refine .inr ?_
    simp only [Float.Model.pack, Float.Model.mk.injEq]
    exact UInt64.toBitVec_inj.1 (hvalid.eq_packedNaN hones hfraction)

theorem pack_unpack (m : Float.Model) : Float.Model.pack m.unpack = m := by
  have hpack := pack_unpack_of_valid m.valid
  simp only [Float.Model.pack, Float.Model.unpack, hpack]

theorem unpack_neg (m : Float.Model) : (-m).unpack = m.unpack.neg := by
  rcases exists_fields m with ⟨f, hf⟩ | rfl
  · show UnpackedFloat.unpack .binary64 (UnpackedFloat.pack .binary64
      (UnpackedFloat.unpack .binary64 m.toBits.toBitVec).neg) = (UnpackedFloat.unpack .binary64 m.toBits.toBitVec).neg
    rw [hf, f.neg_unpack, pack_unpack_of_valid f.neg.valid]
  · rfl

theorem neg_pack (u : UnpackedFloat) : -Float.Model.pack u = Float.Model.pack u.neg := by
  by_cases h : u = .notANumber
  · subst h
    decide
  · obtain ⟨f, hf, hneg⟩ := Fields.exists_of_pack h
    have hbits : UnpackedFloat.pack .binary64
        (UnpackedFloat.unpack .binary64 (UnpackedFloat.pack .binary64 u)).neg = UnpackedFloat.pack .binary64 u.neg := by
      rw [hf, f.neg_unpack, pack_unpack_of_valid f.neg.valid, hneg]
    show Float.Model.pack (UnpackedFloat.unpack .binary64 (UnpackedFloat.pack .binary64 u)).neg = _
    simp only [Float.Model.pack, hbits]

theorem isFinite_iff {x : Float} : x.isFinite ↔ x.toBits.toNat % signBit < infinityBits := by
  obtain ⟨m⟩ := x
  show m.unpack.isFinite ↔ m.toBits.toBitVec.toNat % signBit < infinityBits
  rcases exists_fields m with ⟨f, hf⟩ | rfl
  · rw [Float.Model.unpack, hf, f.isFinite_unpack, Fields.toNat_mod_lt_iff]
  · decide

theorem toBits_ofBits {n : UInt64} (h : n.toNat % signBit < infinityBits) : (Float.ofBits n).toBits = n := by
  refine UInt64.toBitVec_inj.1 ?_
  show UnpackedFloat.pack .binary64 (UnpackedFloat.unpack .binary64 n.toBitVec) = n.toBitVec
  rcases Fields.exists_of_bits n.toBitVec with ⟨f, hf⟩ | ⟨hones, _⟩
  · rw [hf, pack_unpack_of_valid f.valid]
  · exact absurd hones ((Fields.toNat_mod_lt_iff _).1 h)

theorem toNat_toBits_neg {x : Float} (h : x.isFinite) (hx : x.toBits.toNat < signBit) :
    (-x).toBits.toNat = signBit + x.toBits.toNat := by
  obtain ⟨m⟩ := x
  rcases exists_fields m with ⟨f, hf⟩ | rfl
  · have hneg : (-Float.ofModel m).toBits.toBitVec = f.neg.bits := by
      show UnpackedFloat.pack .binary64 (UnpackedFloat.unpack .binary64 m.toBits.toBitVec).neg = _
      rw [hf, f.neg_unpack, pack_unpack_of_valid f.neg.valid]
    have hbits : (Float.ofModel m).toBits.toNat = f.bits.toNat := congrArg BitVec.toNat hf
    rw [← UInt64.toNat_toBitVec, hneg, hbits, Fields.toNat_neg_bits (by rwa [← hbits])]
  · revert h
    decide

/-! ### Magnitudes -/

namespace Magnitude

variable (m : Magnitude)

theorem ordinal_lt_signBit : m.ordinal < signBit :=
  Nat.lt_trans m.ordinal_lt (by decide)

theorem ordinal_mod_signBit : m.ordinal % signBit = m.ordinal :=
  Nat.mod_eq_of_lt m.ordinal_lt_signBit

theorem toNat_toBits_toFloat : m.toFloat.toBits.toNat = m.ordinal := by
  have hordinal : m.ordinal.toUInt64.toNat = m.ordinal :=
    Nat.mod_eq_of_lt (Nat.lt_trans m.ordinal_lt_signBit (by decide))
  rw [toFloat, toBits_ofBits, hordinal]
  rw [hordinal, ordinal_mod_signBit]
  exact m.ordinal_lt

theorem isFinite_toFloat : m.toFloat.isFinite := by
  rw [isFinite_iff, toNat_toBits_toFloat, ordinal_mod_signBit]
  exact m.ordinal_lt

theorem isNegative_toFloat : isNegative m.toFloat = false := by
  rw [isNegative, toNat_toBits_toFloat, decide_eq_false_iff_not, Nat.not_le]
  exact m.ordinal_lt_signBit

theorem toNat_toBits_neg_toFloat : (-m.toFloat).toBits.toNat = signBit + m.ordinal := by
  rw [toNat_toBits_neg m.isFinite_toFloat, toNat_toBits_toFloat]
  rw [toNat_toBits_toFloat]
  exact m.ordinal_lt_signBit

end Magnitude

/-- A finite value is its magnitude or the negative of it, as its sign bit tells. -/
theorem eq_of_isFinite {x : Float} (h : x.isFinite) :
    ∃ m, Magnitude.ofFloat? x = some m ∧ x = if isNegative x then -m.toFloat else m.toFloat := by
  have hlt := isFinite_iff.1 h
  refine ⟨⟨_, hlt⟩, dif_pos hlt, Float.toBits_inj.1 (UInt64.toNat_inj.1 ?_)⟩
  split
  · rename_i hneg
    have hle : signBit ≤ x.toBits.toNat := by simpa [isNegative] using hneg
    have hsize : x.toBits.toNat < 2 * signBit := x.toBits.toNat_lt
    rw [Magnitude.toNat_toBits_neg_toFloat]
    show x.toBits.toNat = signBit + x.toBits.toNat % signBit
    rw [Nat.mod_eq_sub_mod hle, Nat.mod_eq_of_lt (by omega)]
    omega
  · rename_i hneg
    have hbits : x.toBits.toNat < signBit := by simpa [isNegative] using hneg
    rw [Magnitude.toNat_toBits_toFloat]
    exact (Nat.mod_eq_of_lt hbits).symm

end Calculator
