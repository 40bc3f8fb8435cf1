import Calculator.Proofs.Expr.Context
import Calculator.Proofs.Number.Bits

/-!
# Leaves that are no numbers

Evaluation stops at the first leaf from the left that is an infinity or NaN, and only there (`evaluate_of_find?_some`,
`exists_evaluate_eq`).  There are three such values (`eq_of_not_isFinite`), each with a name of its own in the error.

The leaves around a subtree are the same whatever the subtree is (`Context.exists_leaves_fill`).  So a subtree may be
replaced by its value if that is finite, in any tree, whether that tree has a value or fails; a value that is not finite
is a leaf at which the new tree fails, though it was no failure as a result (`evaluate_leftmost`).
-/

namespace Calculator

open Float.Model UnpackedFloat

/-! ### Infinities and NaN -/

/-- A value that has fields and is not finite is infinite. -/
private theorem eq_infinity {x : Float} {f : Fields} (hf : x.toBits.toBitVec = f.bits) (h : ¬x.isFinite) :
    x = 1 / 0 ∨ x = -1 / 0 := by
  have hones : @unpackExponent .binary64 f.bits = -1#11 := by
    by_contra hne
    rw [isFinite_iff, ← UInt64.toNat_toBitVec, hf, Fields.toNat_mod_lt_iff] at h
    exact h hne
  have hbits : ∀ y : Float, y.toBits.toBitVec = f.bits → x = y := by
    intro y hy
    exact Float.toBits_inj.1 (UInt64.toBitVec_inj.1 (hf.trans hy.symm))
  obtain ⟨sign, exponent, fraction, hfraction⟩ := f
  rw [Fields.bits, unpackExponent_packComponents] at hones
  obtain rfl : exponent = -1#11 := hones
  obtain rfl := hfraction rfl
  simp only [Fields.bits] at hbits
  cases sign with
  | positive => exact .inl (hbits _ (by decide +kernel))
  | negative => exact .inr (hbits _ (by decide +kernel))

/-- Infinity, its negative and NaN are all that is not finite. -/
theorem eq_of_not_isFinite {x : Float} (h : ¬x.isFinite) : x = 0 / 0 ∨ x = 1 / 0 ∨ x = -1 / 0 := by
  obtain ⟨m⟩ := x
  rcases exists_fields m with ⟨f, hf⟩ | rfl
  · exact .inr (eq_infinity hf h)
  · exact .inl (by decide +kernel)

/-- The error names the value. -/
theorem message_nonFiniteLiteral {x : Float} (h : ¬x.isFinite) :
    ∃ name, (x = 0 / 0 ∧ name = "NaN" ∨ x = 1 / 0 ∧ name = "inf" ∨ x = -1 / 0 ∧ name = "-inf") ∧
      (EvaluationError.nonFiniteLiteral x).message =
        "Invalid expression: literal " ++ name ++ " is not a finite number" := by
  refine ⟨plainText x, ?_, rfl⟩
  rcases eq_of_not_isFinite h with rfl | rfl | rfl
  · exact .inl ⟨rfl, by decide +kernel⟩
  · exact .inr (.inl ⟨rfl, by decide +kernel⟩)
  · exact .inr (.inr ⟨rfl, by decide +kernel⟩)

/-! ### The leftmost leaf -/

namespace Expr

/-- The first leaf that is not finite is the error, whatever is computed around it. -/
theorem evaluate_of_find?_some {e : Expr} {x : Float} (h : e.leaves.find? (!·.isFinite) = some x) :
    e.evaluate = .error (.nonFiniteLiteral x) := by
  induction e with
  | value y =>
    have hfinite : y.isFinite = false := by
      by_contra hnot
      simp [leaves, hnot] at h
    obtain rfl : y = x := by simpa [leaves, hfinite] using h
    simp [evaluate, hfinite]
  | unary op e ih =>
    rw [evaluate, ih h]
    rfl
  | binary op l r ihl ihr =>
    rw [leaves, List.find?_append] at h
    cases hl : l.leaves.find? (!·.isFinite) with
    | some y =>
      obtain rfl : y = x := by simpa [hl] using h
      rw [evaluate, ihl hl]
      rfl
    | none =>
      -- the left operand has a value, so the right one is evaluated
      obtain ⟨y, hy⟩ := exists_evaluate_eq (e := l) (by simpa using hl)
      rw [hl, Option.none_or] at h
      rw [evaluate, hy, ihr h]
      rfl

/-- A tree that has a value has finite leaves only. -/
theorem isFinite_of_evaluate {e : Expr} {v x : Float} (h : e.evaluate = .ok v) (hx : x ∈ e.leaves) : x.isFinite := by
  cases hfind : e.leaves.find? (!·.isFinite) with
  | some y =>
    rw [evaluate_of_find?_some hfind] at h
    cases h
  | none =>
    have hall := List.find?_eq_none.1 hfind x hx
    simpa using hall

end Expr

/-! ### Subtrees and their values -/

namespace Context

/-- The leaves around the hole do not depend on what fills it. -/
theorem exists_leaves_fill (c : Context) :
    ∃ before after, ∀ e, (c.fill e).leaves = before ++ e.leaves ++ after := by
  induction c with
  | hole => exact ⟨[], [], by simp [fill]⟩
  | unary op c ih => exact ih
  | left op l r ih =>
    obtain ⟨before, after, h⟩ := ih
    exact ⟨before, after ++ r.leaves, fun e => by simp [fill, Expr.leaves, h]⟩
  | right op l r ih =>
    obtain ⟨before, after, h⟩ := ih
    exact ⟨l.leaves ++ before, after, fun e => by simp [fill, Expr.leaves, h]⟩

variable {s : Expr} {v : Float}

/-- A finite value may stand for the subtree that has it. -/
theorem evaluate_fill_value (c : Context) (hs : s.evaluate = .ok v) (hv : v.isFinite) :
    (c.fill s).evaluate = (c.fill (.value v)).evaluate := by
  have hvalue : (Expr.value v).evaluate = .ok v := by simp [Expr.evaluate, hv]
  exact c.evaluate_fill (hs.trans hvalue.symm)

/-- A value that is not finite fails as a leaf. -/
theorem exists_evaluate_fill_eq_error (c : Context) (hv : ¬v.isFinite) :
    ∃ x, (c.fill (.value v)).evaluate = .error (.nonFiniteLiteral x) := by
  obtain ⟨before, after, hleaves⟩ := c.exists_leaves_fill
  cases hfind : (c.fill (.value v)).leaves.find? (!·.isFinite) with
  | some x => exact ⟨x, Expr.evaluate_of_find?_some hfind⟩
  | none =>
    have hmem : v ∈ (c.fill (.value v)).leaves := by simp [hleaves, Expr.leaves]
    have hfinite := List.find?_eq_none.1 hfind v hmem
    simp [hv] at hfinite

/-- Where all else is finite, it is that leaf which fails. -/
theorem evaluate_fill_eq_error (c : Context) (hv : ¬v.isFinite) {w : Float} (hw : (c.fill s).evaluate = .ok w) :
    (c.fill (.value v)).evaluate = .error (.nonFiniteLiteral v) := by
  obtain ⟨before, after, hleaves⟩ := c.exists_leaves_fill
  apply Expr.evaluate_of_find?_some
  have hbefore : before.find? (!·.isFinite) = none := by
    apply List.find?_eq_none.2
    intro x hx
    have hfinite : x.isFinite := Expr.isFinite_of_evaluate hw (by simp [hleaves, hx])
    simp [hfinite]
  rw [hleaves, List.append_assoc, List.find?_append, hbefore, Option.none_or, Expr.leaves, List.singleton_append,
    List.find?_cons_of_pos (by simp [hv])]

end Context

/-- A tree has a value unless a leaf is an infinity or NaN, and then the error names the first such leaf from the left.
In any tree, a subtree may be replaced by its value if that is finite, and the value or the error is the same; if the
value is not finite, the tree fails with it as a leaf, and names it if it had a value before. -/
theorem evaluate_leftmost :
    (∀ t : Expr,
      match t.leaves.find? (!·.isFinite) with
      | some x => t.evaluate = .error (.nonFiniteLiteral x) ∧
          ∃ name, (x = 0 / 0 ∧ name = "NaN" ∨ x = 1 / 0 ∧ name = "inf" ∨ x = -1 / 0 ∧ name = "-inf") ∧
            (EvaluationError.nonFiniteLiteral x).message =
              "Invalid expression: literal " ++ name ++ " is not a finite number"
      | none => ∃ v, t.evaluate = .ok v) ∧
      ∀ (c : Context) (s : Expr) (v : Float), s.evaluate = .ok v →
        (v.isFinite → (c.fill s).evaluate = (c.fill (.value v)).evaluate) ∧
          (¬v.isFinite → (∃ x, (c.fill (.value v)).evaluate = .error (.nonFiniteLiteral x)) ∧
            ∀ w, (c.fill s).evaluate = .ok w → (c.fill (.value v)).evaluate = .error (.nonFiniteLiteral v)) := by
  refine ⟨fun t => ?_, fun c s v hs => ⟨fun hv => ?_, fun hv => ⟨?_, fun w hw => ?_⟩⟩⟩
  · cases hfind : t.leaves.find? (!·.isFinite) with
    | some x =>
      have hx : ¬x.isFinite := by simpa using List.find?_some hfind
      exact ⟨Expr.evaluate_of_find?_some hfind, message_nonFiniteLiteral hx⟩
    | none => exact Expr.exists_evaluate_eq (by simpa using hfind)
  · exact c.evaluate_fill_value hs hv
  · exact c.exists_evaluate_fill_eq_error hv
  · exact c.evaluate_fill_eq_error hv hw

/-- A zero factor and the exponent zero hide no leaf.  The infinite quotient `1 / 0` is a value of which the reciprocal
is zero; as a leaf it fails there.  The zero may be a leaf, also where the next one fails. -/
theorem evaluate_leftmost_infinity :
    let hidden : Expr := .binary .mul (.value 0) (.binary .pow (.value (-1 / 0)) (.unary .negate (.value 0)))
    let infinite : Expr := .binary .div (.value 1) (.value 0)
    let reciprocal : Context := .right .div (.value 1) .hole
    let before : Context := .left .add .hole hidden
    hidden.evaluate = .error (.nonFiniteLiteral (-1 / 0)) ∧ infinite.evaluate = .ok (1 / 0) ∧
      (reciprocal.fill infinite).evaluate = .ok 0 ∧
      (reciprocal.fill (.value (1 / 0))).evaluate = .error (.nonFiniteLiteral (1 / 0)) ∧
      (before.fill (reciprocal.fill infinite)).evaluate = .error (.nonFiniteLiteral (-1 / 0)) ∧
      (before.fill (.value 0)).evaluate = .error (.nonFiniteLiteral (-1 / 0)) := by
  intro hidden infinite reciprocal before
  have hfind : hidden.leaves.find? (!·.isFinite) = some (-1 / 0) := by decide +kernel
  have hhidden := evaluate_leftmost.1 hidden
  rw [hfind] at hhidden
  have hinfinite : infinite.evaluate = .ok (1 / 0) := by decide +kernel
  have hzero : (reciprocal.fill infinite).evaluate = .ok 0 := by decide +kernel
  have hleaf := (evaluate_leftmost.2 reciprocal infinite _ hinfinite).2 (by decide +kernel)
  have hbefore : (before.fill (.value 0)).evaluate = .error (.nonFiniteLiteral (-1 / 0)) := by decide +kernel
  have hfold := (evaluate_leftmost.2 before (reciprocal.fill infinite) 0 hzero).1 (by decide +kernel)
  exact ⟨hhidden.1, hinfinite, hzero, hleaf.2 0 hzero, hfold.trans hbefore, hbefore⟩

end Calculator
