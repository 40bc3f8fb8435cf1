import Calculator.Proofs.Number.Bits

/-!
# Laws of signs

Negating twice changes nothing, a difference is the sum with the negative, and the sign of a factor or dividend is that
of the product or quotient.  They hold of all binary64 values, rounding does not see the sign, and NaN is its own
negative.
-/

namespace Calculator

namespace Binary64

open Float.Model UnpackedFloat

/-! ### Signs of unpacked values -/

private theorem sign_neg_neg (s : Sign) : - -s = s := by
  cases s <;> rfl

private theorem sign_neg_mul (s t : Sign) : -s * t = -(s * t) := by
  cases s <;> cases t <;> rfl

private theorem sign_neg_div (s t : Sign) : -s / t = -(s / t) := by
  cases s <;> cases t <;> rfl

private theorem sub_apply_neg (a : Int) (s : Sign) (n : Int) : a - (-s).apply n = a + s.apply n := by
  cases s with
  | negative => exact Int.sub_eq_add_neg
  | positive => exact Int.sub_neg a n

private theorem roundWithAccuracy_neg (s : Sign) (m : Nat) (e : Int) (accuracy : Accuracy) :
    roundWithAccuracy .binary64 (-s) m e accuracy = (roundWithAccuracy .binary64 s m e accuracy).neg := by
  simp only [roundWithAccuracy]
  split <;> rfl

private theorem neg_neg_unpacked (u : UnpackedFloat) : u.neg.neg = u := by
  cases u <;> simp only [UnpackedFloat.neg, sign_neg_neg]

private theorem sub_neg_unpacked (u v : UnpackedFloat) :
    UnpackedFloat.sub .binary64 u v.neg = UnpackedFloat.add .binary64 u v := by
  cases u <;> cases v <;>
    simp only [UnpackedFloat.sub, UnpackedFloat.add, UnpackedFloat.neg, sign_neg_neg, sub_apply_neg]

private theorem neg_mul_unpacked (u v : UnpackedFloat) :
    UnpackedFloat.mul .binary64 u.neg v = (UnpackedFloat.mul .binary64 u v).neg := by
  cases u <;> cases v <;>
    simp only [UnpackedFloat.mul, UnpackedFloat.neg, sign_neg_mul, roundWithAccuracy_neg]

private theorem neg_div_unpacked (u v : UnpackedFloat) :
    UnpackedFloat.div .binary64 u.neg v = (UnpackedFloat.div .binary64 u v).neg := by
  cases u <;> cases v <;>
    simp only [UnpackedFloat.div, UnpackedFloat.neg, sign_neg_div, roundWithAccuracy_neg]

/-! ### Signs of values -/

theorem neg_neg (x : Float) : - -x = x := by
  obtain ⟨m⟩ := x
  have h : - -m = m := by
    show Float.Model.pack (-m).unpack.neg = m
    rw [unpack_neg, neg_neg_unpacked, pack_unpack]
  exact congrArg Float.ofModel h

theorem sub_neg (x y : Float) : x - -y = x + y := by
  obtain ⟨m⟩ := x
  obtain ⟨n⟩ := y
  have h : m - -n = m + n := by
    show Float.Model.pack (UnpackedFloat.sub .binary64 m.unpack (-n).unpack) = _
    rw [unpack_neg, sub_neg_unpacked]
    rfl
  exact congrArg Float.ofModel h

theorem add_neg (x y : Float) : x + -y = x - y := by
  rw [← sub_neg, neg_neg]

theorem neg_mul (x y : Float) : -x * y = -(x * y) := by
  obtain ⟨m⟩ := x
  obtain ⟨n⟩ := y
  have h : -m * n = -(m * n) := by
    show Float.Model.pack (UnpackedFloat.mul .binary64 (-m).unpack n.unpack) =
      -Float.Model.pack (UnpackedFloat.mul .binary64 m.unpack n.unpack)
    rw [unpack_neg, neg_mul_unpacked, neg_pack]
  exact congrArg Float.ofModel h

theorem neg_div (x y : Float) : -x / y = -(x / y) := by
  obtain ⟨m⟩ := x
  obtain ⟨n⟩ := y
  have h : -m / n = -(m / n) := by
    show Float.Model.pack (UnpackedFloat.div .binary64 (-m).unpack n.unpack) =
      -Float.Model.pack (UnpackedFloat.div .binary64 m.unpack n.unpack)
    rw [unpack_neg, neg_div_unpacked, neg_pack]
  exact congrArg Float.ofModel h

end Binary64

end Calculator
