import Calculator.Proofs.Syntax.Nesting

/-!
# Substitution

A number is read as a leaf that tokens before and after it surround (`Occurs.exists_around`).  A group fits wherever
a number does, so that tokens in parentheses in its place are read as their tree in the place of the leaf, unless that
tree is too deep or the tokens stand inside too many groups and prefix operators (`parse_group_eq`).
-/

namespace Calculator

/-- A number is a leaf, and the tokens around it are a tree with a hole for it. -/
theorem Occurs.exists_around {category : Category} {text : String} {k : Nat} {before after : List Token} {e : Expr}
    (h : Occurs (.number text) category k before after e) :
    ∃ d k' c m, Around .primary category d k' before after c ∧ readLiteral text.toList = .ok m ∧
      e = c.fill (.value m.toFloat) ∧ k = max k' d := by
  obtain ⟨around, part⟩ := h
  -- of all parts that a token may play, only that of a number is open to this one
  cases part with
  | @number text' m ht hm =>
    obtain rfl : text = text' := by simpa using ht
    simpa using ⟨_, _, _, around, m, hm, rfl, rfl⟩
  | leftParen ht | rightParen ht | signed ht | extend ht => cases ht

/-- The number before which `i` others stand is enclosed as often as the hole that it fills. -/
theorem Around.nestings_getElem? {d k : Nat} {before after : List Token} {c : Context} {text : String} {m : Magnitude}
    (h : Around .primary (.chain .sum) d k before after c) (hm : readLiteral text.toList = .ok m) :
    (nestings (before ++ .number text :: after))[before.countP Token.isNumber]? = some d := by
  have hs : (⟨.sum, 0⟩ : Setting).Admits [] (.chain .sum) := ⟨by simp, fun _ => Nat.le_refl _⟩
  obtain ⟨inner, ns, hns, hinner, hlength⟩ := h.nestings_eq hs 0 (.number text :: after)
  have hx := readNumber_eq_ok_iff (p := 0 + before.length).2 ⟨m, hm, rfl⟩
  rw [nestings, hns, Reading.nestings_number hx, ← hlength, List.getElem?_append_right (Nat.le_refl _), Nat.sub_self,
    List.getElem?_cons_zero, hinner]
  simp [Setting.nestingIn]

/-- Tokens in parentheses in the place of a number are read as their tree in the place of its leaf.  They are refused
only if that tree is too deep, or if too many groups and prefix operators enclose a number among them: those around
their place, their own parentheses, and those inside. -/
theorem parse_group_eq {before after inner : List Token} {text : String} {t u : Expr}
    (ht : parse (before ++ .number text :: after) = .ok t) (hu : parse inner = .ok u) :
    let i := before.countP Token.isNumber
    let grouped := before ++ .leftParen :: (inner ++ .rightParen :: after)
    ∃ enclosing, (nestings (before ++ .number text :: after))[i]? = some enclosing ∧
      let isWithinLimits :=
        (t.replaceLeaf i u).depth ≤ maxDepth ∧ enclosing + 1 + greatest (nestings inner) ≤ maxNesting
      (isWithinLimits → parse grouped = .ok (t.replaceLeaf i u)) ∧
        (¬isWithinLimits → ∃ p, parse grouped = .error (.nestingTooDeep p)) := by
  intro i grouped
  obtain ⟨n, hn, hlimit, -⟩ := derives_of_parse ht
  obtain ⟨d, k, c, m, haround, hm, rfl, rfl⟩ := hn.occurs.exists_around
  obtain ⟨j, hj, -⟩ := derives_of_parse hu
  have hgrouped : Derives (.chain .sum) (max k (d + (j + 1))) grouped (c.fill u) := by
    simpa [grouped] using haround.fill hj.group
  have htree : (c.fill (.value m.toFloat)).replaceLeaf i u = c.fill u := by
    rw [← c.replaceLeaf_fill m.toFloat u, haround.leavesBefore_eq]
  rw [htree, hj.greatest_nestings]
  refine ⟨d, haround.nestings_getElem? hm, fun hlimits => ?_, fun hlimits => ?_⟩
  · exact hgrouped.parse_eq_ok ⟨by omega, hlimits.1⟩
  · exact hgrouped.parse_eq_error fun h => hlimits ⟨h.2, by omega⟩

/-- In `2 ^ - 3 * 4` the group `( 5 + 6 )` may take the place of the exponent, which one prefix operator encloses. -/
theorem parse_group_exponent :
    let before := [.number "2", .operator .pow, .operator .sub]
    let after := [.operator .mul, .number "4"]
    let inner := [.number "5", .operator .add, .number "6"]
    let power := fun exponent => Expr.binary .pow (.value 2) (.unary .negate exponent)
    let sum := Expr.binary .add (.value 5) (.value 6)
    parse (before ++ .number "3" :: after) = .ok (.binary .mul (power (.value 3)) (.value 4)) ∧
      parse inner = .ok sum ∧ nestings (before ++ .number "3" :: after) = [0, 1, 0] ∧ nestings inner = [0, 0] ∧
      parse (before ++ .leftParen :: (inner ++ .rightParen :: after)) = .ok (.binary .mul (power sum) (.value 4)) := by
  intro before after inner power sum
  have ht : parse (before ++ .number "3" :: after) = .ok (.binary .mul (power (.value 3)) (.value 4)) := by
    decide +kernel
  have hu : parse inner = .ok sum := by decide +kernel
  have hnestings : nestings (before ++ .number "3" :: after) = [0, 1, 0] := by decide +kernel
  have hinner : nestings inner = [0, 0] := by decide +kernel
  obtain ⟨enclosing, henclosing, hgrouped, -⟩ := parse_group_eq ht hu
  rw [hnestings] at henclosing
  obtain rfl : 1 = enclosing := Option.some.inj henclosing
  exact ⟨ht, hu, hnestings, hinner, hgrouped (by rw [hinner]; decide)⟩

end Calculator
