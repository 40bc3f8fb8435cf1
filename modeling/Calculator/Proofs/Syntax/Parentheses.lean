import Calculator.Proofs.Syntax.Context

/-!
# Parentheses that match

The parentheses of what is derived match each other (`Derives.isBalanced`).  Balanced tokens between parentheses can
be closed by no other one than that behind them (`IsBalanced.eq_of_append`), so they are the inside of a group, and the
tokens around that group are a tree with a hole (`Derives.exists_around_group`).  Another group of the same value may
take its place, limits aside (`parse_replace_group`).
-/

namespace Calculator

/-- Whether the token is a parenthesis. -/
def Token.isParen (t : Token) : Bool :=
  t.kind = .paren

theorem isParen_of_unaryOp? {t : Token} {op : UnaryOp} (h : t.unaryOp? = some op) : t.isParen = false := by
  cases t <;> first | rfl | simp [Token.unaryOp?] at h

/-! ### Balanced tokens -/

/-- Nowhere are more parentheses closed than were opened, and in the end as many. -/
structure IsBalanced (ts : List Token) : Prop where
  count_take_le (n : Nat) : (ts.take n).count .rightParen ≤ (ts.take n).count .leftParen
  count_eq : ts.count .leftParen = ts.count .rightParen

namespace IsBalanced

variable {ts ts' : List Token}

theorem singleton {t : Token} (h : t.isParen = false) : IsBalanced [t] := by
  have hl : t ≠ .leftParen := by
    rintro rfl
    cases h
  have hr : t ≠ .rightParen := by
    rintro rfl
    cases h
  constructor
  · intro n
    cases n with
    | zero => exact Nat.le_refl _
    | succ n => simp [hl, hr]
  · simp [hl, hr]

theorem append (h : IsBalanced ts) (h' : IsBalanced ts') : IsBalanced (ts ++ ts') := by
  have heq := h.count_eq
  have heq' := h'.count_eq
  constructor
  · intro n
    have hle := h.count_take_le n
    have hle' := h'.count_take_le (n - ts.length)
    rw [List.take_append, List.count_append, List.count_append]
    omega
  · rw [List.count_append, List.count_append]
    omega

theorem group (h : IsBalanced ts) : IsBalanced (.leftParen :: (ts ++ [.rightParen])) := by
  have heq := h.count_eq
  constructor
  · intro n
    cases n with
    | zero => exact Nat.le_refl _
    | succ n =>
      have hle := h.count_take_le n
      have hlast : (List.take (n - ts.length) [Token.rightParen]).count .rightParen ≤ 1 :=
        List.count_le_length.trans (by simp)
      rw [List.take_succ_cons, List.take_append, List.count_cons_of_ne (by decide), List.count_cons_self,
        List.count_append, List.count_append]
      omega
  · rw [List.count_cons_self, List.count_cons_of_ne (by decide), List.count_append, List.count_append,
      List.count_singleton_self, List.count_singleton]
    exact congrArg (· + 1) heq

/-- What closes a parenthesis that was opened before is no part of anything balanced. -/
theorem not_append (h : IsBalanced ts) (more : List Token) : ¬ IsBalanced (ts ++ .rightParen :: more) := by
  intro hall
  have heq := h.count_eq
  have hle := hall.count_take_le (ts.length + 1)
  rw [List.take_append, List.take_of_length_le (Nat.le_succ _), Nat.add_sub_cancel_left, List.take_succ_cons,
    List.take_zero, List.count_append, List.count_append, List.count_singleton_self, List.count_singleton] at hle
  exact absurd hle (by simp [heq])

theorem eq_of_append {rest rest' : List Token} (h : IsBalanced ts) (h' : IsBalanced ts')
    (heq : ts ++ .rightParen :: rest = ts' ++ .rightParen :: rest') : ts = ts' ∧ rest = rest' := by
  rcases List.append_eq_append_iff.1 heq with ⟨between, rfl, hrest⟩ | ⟨between, rfl, hrest⟩
  · cases between with
    | nil => simpa using hrest
    | cons t between =>
      obtain ⟨rfl, -⟩ := List.cons.inj hrest
      exact absurd h' (h.not_append between)
  · cases between with
    | nil => simpa using hrest.symm
    | cons t between =>
      obtain ⟨rfl, -⟩ := List.cons.inj hrest
      exact absurd h (h'.not_append between)

end IsBalanced

/-! ### Of what is derived -/

variable {category : Category} {k : Nat} {e : Expr}

theorem Derives.isBalanced {ts : List Token} (h : Derives category k ts e) : IsBalanced ts := by
  induction h with
  | number => exact .singleton rfl
  | group _ ih => exact ih.group
  | signed ht _ ih =>
    have hop := IsBalanced.singleton (isParen_of_unaryOp? ht)
    exact hop.append ih
  | unsigned _ ih | single _ ih => exact ih
  | @extend _ _ _ _ _ _ _ op _ _ _ ihl ihr =>
    have hop : IsBalanced [.operator op] := .singleton rfl
    exact ihl.append (hop.append ihr)

/-- Balanced tokens between parentheses are a group: they have a tree of their own, and the tokens around are a tree
with a hole for it. -/
theorem Derives.exists_around_group {before inner after : List Token}
    (h : Derives category k (before ++ .leftParen :: (inner ++ .rightParen :: after)) e) (hinner : IsBalanced inner) :
    ∃ d k' c j u, Around .primary category d k' before after c ∧ Derives (.chain .sum) j inner u ∧
      e = c.fill u ∧ k = max k' (d + (j + 1)) := by
  have hoccurs := h.occurs
  generalize hrest : inner ++ .rightParen :: after = rest at hoccurs
  obtain ⟨around, part⟩ := hoccurs
  -- of all parts that a token may play, only that of a parenthesis opened is open to this one
  cases part with
  | leftParen ht hu =>
    rw [List.append_assoc, List.singleton_append] at hrest
    obtain ⟨rfl, rfl⟩ := hinner.eq_of_append hu.isBalanced hrest
    rw [List.append_nil]
    exact ⟨_, _, _, _, _, around, hu, rfl, rfl⟩
  | number ht | rightParen ht | signed ht | extend ht => cases ht

/-! ### Groups in the place of others -/

/-- A group in the place of another of the same value keeps the value of the whole, or is refused for a limit; a single
number passes none. -/
theorem parse_replace_group {before inner inner' after : List Token} {t u u' : Expr} {k' : Nat}
    (ht : parse (before ++ .leftParen :: (inner ++ .rightParen :: after)) = .ok t) (hu : parse inner = .ok u)
    (hu' : Derives (.chain .sum) k' inner' u') (hvalue : u'.evaluate = u.evaluate) :
    ∃ t', t'.evaluate = t.evaluate ∧
      let replaced := parse (before ++ .leftParen :: (inner' ++ .rightParen :: after))
      (replaced = .ok t' ∨ ∃ p, replaced = .error (.nestingTooDeep p)) ∧
        (k' = 0 → u'.depth = 1 → replaced = .ok t') := by
  obtain ⟨n, hn, hnesting, hdepth⟩ := derives_of_parse ht
  obtain ⟨j, hj, -⟩ := derives_of_parse hu
  obtain ⟨d, k, c, i, u₀, haround, hu₀, rfl, rfl⟩ := hn.exists_around_group hj.isBalanced
  obtain rfl := hj.unique hu₀
  have hreplaced : Derives (.chain .sum) (max k (d + (k' + 1)))
      (before ++ .leftParen :: (inner' ++ .rightParen :: after)) (c.fill u') := by
    simpa using haround.fill hu'.group
  refine ⟨c.fill u', c.evaluate_fill hvalue, ?_, ?_⟩
  · by_cases hlimits : max k (d + (k' + 1)) ≤ maxNesting ∧ (c.fill u').depth ≤ maxDepth
    · exact .inl (hreplaced.parse_eq_ok hlimits)
    · exact .inr (hreplaced.parse_eq_error hlimits)
  · rintro rfl hleaf
    -- no tree is less deep than a leaf, and no group encloses less than one with a number alone
    have hle : u'.depth ≤ u.depth := hleaf ▸ u.depth_pos
    have hfill := c.depth_fill_le hle
    exact hreplaced.parse_eq_ok ⟨by omega, hfill.trans hdepth⟩

end Calculator
