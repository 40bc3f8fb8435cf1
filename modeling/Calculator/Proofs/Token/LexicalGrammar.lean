import Calculator.Token.Lexeme

/-!
# The lexical grammar

A text is cut into lexemes and white space.  Three kinds of lexemes are *runs*, which a further character may
continue: numerals, runs of minus signs and runs of small letters.  Two runs of one kind must not touch.

* `Spells l t`: the lexeme `l` is how the token `t` may be written;
* `Cut text tokens last`: `text` is cut into white space and lexemes that spell `tokens`, and ends with the lexeme
  `last`, or with white space if `last` is empty;
* `Fault text error`: where and why no cut of `text` can be completed.

None of them mentions the scan; `Calculator.Proofs.Token.Tokenize` proves that it decides them.
-/

namespace Calculator

/-! ### Runs -/

/-- Not empty, and all of its characters satisfy `p`. -/
def IsRunOf (p : Char → Bool) (l : List Char) : Prop :=
  l ≠ [] ∧ ∀ c ∈ l, p c

/-- Digits, a point, and possibly more digits. -/
def IsPointed (l : List Char) : Prop :=
  ∃ whole fraction, IsRunOf Char.isDigit whole ∧ (∀ c ∈ fraction, c.isDigit) ∧ l = whole ++ '.' :: fraction

/-- A number as it is written. -/
def IsNumeral (l : List Char) : Prop :=
  IsRunOf Char.isDigit l ∨ IsPointed l

/-- A lexeme to which a further character may belong, or a letter run that names nothing. -/
def IsRun (l : List Char) : Prop :=
  IsNumeral l ∨ IsRunOf (· == '-') l ∨ IsRunOf Char.isLower l

/-- Runs of one kind, which would be one run if they touched. -/
def RunTogether (l l' : List Char) : Prop :=
  IsNumeral l ∧ IsNumeral l' ∨ IsRunOf (· == '-') l ∧ IsRunOf (· == '-') l' ∨
    IsRunOf Char.isLower l ∧ IsRunOf Char.isLower l'

/-- The character does not belong to the lexeme before it. -/
def EndsBefore (l : List Char) (c : Char) : Prop :=
  l = [] ∨ ¬ IsRun (l ++ [c])

/-! ### Cuts -/

/-- How tokens are written. -/
inductive Spells : List Char → Token → Prop
  | number {l : List Char} : IsNumeral l → Spells l (.number (String.ofList l))
  | oddMinus {l : List Char} : IsRunOf (· == '-') l → l.length % 2 = 1 → Spells l (.operator .sub)
  | evenMinus {l : List Char} : IsRunOf (· == '-') l → l.length % 2 = 0 → Spells l (.operator .add)
  | plus : Spells ['+'] (.operator .add)
  | times : Spells ['*'] (.operator .mul)
  | slash : Spells ['/'] (.operator .div)
  | caret : Spells ['^'] (.operator .pow)
  | leftParen : Spells ['('] .leftParen
  | rightParen : Spells [')'] .rightParen
  | sci : Spells ['e'] (.operator .sci)
  | function (f : Function) : Spells f.name.toList (.function f)

/-- The text is white space and lexemes that spell the tokens.  The last argument is the lexeme that ends the text;
it is empty if there is none or white space follows it. -/
inductive Cut : List Char → List Token → List Char → Prop
  | nil : Cut [] [] []
  | blank {text : List Char} {tokens : List Token} {last : List Char} {c : Char} :
      Cut text tokens last → isWhiteSpace c → Cut (text ++ [c]) tokens []
  | lexeme {text : List Char} {tokens : List Token} {last l : List Char} {t : Token} :
      Cut text tokens last → Spells l t → ¬ RunTogether last l → Cut (text ++ l) (tokens ++ [t]) l

/-- The first place at which no cut goes on, with the error that names it.

* `character`: what precedes `c` has a cut, and `c` is no white space, does not continue the lexeme before it and
  starts none;
* `functionName`: what precedes the letter run has a cut, the run is as long as possible and names nothing. -/
inductive Fault : List Char → LexicalError → Prop
  | character {before after : List Char} {tokens : List Token} {last : List Char} {c : Char} :
      Cut before tokens last → ¬ isWhiteSpace c → ¬ IsRun (last ++ [c]) → ¬ IsRun [c] → (∀ t, ¬ Spells [c] t) →
      Fault (before ++ c :: after) (.invalidCharacter c before.length)
  | functionName {before run after : List Char} {tokens : List Token} {last : List Char} :
      Cut before tokens last → (∀ c ∈ before.getLast?, ¬ c.isLower) → (∀ c ∈ after.head?, ¬ c.isLower) →
      IsRunOf Char.isLower run → run ≠ ['e'] → (∀ f : Function, run ≠ f.name.toList) →
      Fault (before ++ run ++ after) (.invalidFunctionName (String.ofList run) (before.length + run.length))

/-! ### Facts on runs -/

theorem isRunOf_concat {p : Char → Bool} {l : List Char} {c : Char} :
    IsRunOf p (l ++ [c]) ↔ (l = [] ∨ IsRunOf p l) ∧ p c := by
  unfold IsRunOf
  rcases l with _ | ⟨a, l⟩ <;> simp [and_assoc, or_imp, forall_and]

theorem IsRunOf.head {p : Char → Bool} {c : Char} {l : List Char} (h : IsRunOf p (c :: l)) : p c :=
  h.2 c (by simp)

theorem not_isPointed_singleton {c : Char} : ¬ IsPointed [c] := by
  rintro ⟨whole, fraction, ⟨hne, _⟩, _, h⟩
  have := congrArg List.length h
  have := List.length_pos_iff.mpr hne
  simp at *
  omega

theorem IsPointed.not_digits {l : List Char} (h : IsPointed l) : ¬ IsRunOf Char.isDigit l := by
  obtain ⟨whole, fraction, _, _, rfl⟩ := h
  exact fun h => absurd (h.2 '.' (by simp)) (by decide)

theorem isPointed_concat {l : List Char} {c : Char} :
    IsPointed (l ++ [c]) ↔ IsRunOf Char.isDigit l ∧ c = '.' ∨ IsPointed l ∧ c.isDigit := by
  constructor
  · rintro ⟨whole, fraction, hwhole, hfraction, h⟩
    rcases List.eq_nil_or_concat fraction with rfl | ⟨fraction, d, rfl⟩
    · obtain ⟨rfl, hc⟩ := List.append_inj' h rfl
      exact .inl ⟨hwhole, by simpa using hc⟩
    · rw [List.concat_eq_append, ← List.cons_append, ← List.append_assoc] at h
      obtain ⟨rfl, hc⟩ := List.append_inj' h rfl
      obtain rfl : c = d := by simpa using hc
      exact .inr ⟨⟨whole, fraction, hwhole, fun x hx => hfraction x (by simp [hx]), rfl⟩, hfraction c (by simp)⟩
  · rintro (⟨hwhole, rfl⟩ | ⟨⟨whole, fraction, hwhole, hfraction, rfl⟩, hc⟩)
    · exact ⟨l, [], hwhole, by simp, rfl⟩
    · refine ⟨whole, fraction ++ [c], hwhole, ?_, by simp⟩
      simpa [or_imp, forall_and] using ⟨hfraction, hc⟩

theorem IsNumeral.head {c : Char} {l : List Char} (h : IsNumeral (c :: l)) : c.isDigit := by
  rcases h with h | ⟨_ | ⟨d, whole⟩, fraction, hwhole, _, h⟩
  · exact h.head
  · exact absurd rfl hwhole.1
  · obtain ⟨rfl, -⟩ := List.cons.inj h
    exact hwhole.head

theorem isNumeral_singleton {c : Char} : IsNumeral [c] ↔ c.isDigit := by
  simp [IsNumeral, IsRunOf, not_isPointed_singleton]

theorem IsNumeral.ne_nil {l : List Char} (h : IsNumeral l) : l ≠ [] := by
  rcases h with h | ⟨whole, fraction, _, _, rfl⟩
  · exact h.1
  · simp

theorem isRun_singleton {c : Char} : IsRun [c] ↔ c.isDigit ∨ c = '-' ∨ c.isLower := by
  simp [IsRun, isNumeral_singleton, IsRunOf]

theorem IsRun.ne_nil {l : List Char} : IsRun l → l ≠ []
  | .inl h => h.ne_nil
  | .inr (.inl h) => h.1
  | .inr (.inr h) => h.1

theorem IsNumeral.last {l : List Char} {c : Char} (h : IsNumeral (l ++ [c])) : c.isDigit ∨ c = '.' := by
  rcases h with h | h
  · exact .inl (isRunOf_concat.mp h).2
  · rcases isPointed_concat.mp h with ⟨_, h⟩ | ⟨_, h⟩
    · exact .inr h
    · exact .inl h

/-- The characters that may end a run. -/
theorem IsRun.last {l : List Char} {c : Char} (h : IsRun (l ++ [c])) :
    c.isDigit ∨ c = '.' ∨ c = '-' ∨ c.isLower := by
  rcases h with h | h | h
  · rcases h.last with h | h
    · exact .inl h
    · exact .inr (.inl h)
  · exact .inr (.inr (.inl (by simpa using (isRunOf_concat.mp h).2)))
  · exact .inr (.inr (.inr (isRunOf_concat.mp h).2))

/-! ### Runs of different kinds -/

theorem isLower_iff {c : Char} : c.isLower ↔ 97 ≤ c.toNat ∧ c.toNat ≤ 122 := by
  show (decide (c.val ≥ 'a'.val) && decide (c.val ≤ 'z'.val)) = true ↔ _
  simp [UInt32.le_iff_toNat_le]

theorem isDigit_iff {c : Char} : c.isDigit ↔ 48 ≤ c.toNat ∧ c.toNat ≤ 57 :=
  Char.isDigit_iff_toNat

theorem not_isLower_of_isDigit {c : Char} (h : c.isDigit) : ¬ c.isLower := by
  rw [isDigit_iff] at h
  rw [isLower_iff]
  omega

theorem IsNumeral.not_minus {l : List Char} (h : IsNumeral l) : ¬ IsRunOf (· == '-') l := by
  intro hm
  obtain ⟨c, l, rfl⟩ := List.exists_cons_of_ne_nil h.ne_nil
  obtain rfl : c = '-' := by simpa using hm.head
  exact absurd h.head (by decide)

theorem IsNumeral.not_letters {l : List Char} (h : IsNumeral l) : ¬ IsRunOf Char.isLower l := by
  intro hl
  obtain ⟨c, l, rfl⟩ := List.exists_cons_of_ne_nil h.ne_nil
  exact not_isLower_of_isDigit h.head hl.head

theorem not_letters_of_minus {l : List Char} (h : IsRunOf (· == '-') l) : ¬ IsRunOf Char.isLower l := by
  intro hl
  obtain ⟨c, l, rfl⟩ := List.exists_cons_of_ne_nil h.1
  obtain rfl : c = '-' := by simpa using h.head
  exact absurd hl.head (by decide)

/-! ### What a run begins with -/

theorem IsRunOf.of_concat {p : Char → Bool} {l : List Char} {c : Char} (h : IsRunOf p (l ++ [c])) (hl : l ≠ []) :
    IsRunOf p l :=
  (isRunOf_concat.mp h).1.resolve_left hl

theorem IsNumeral.of_concat {l : List Char} {c : Char} (h : IsNumeral (l ++ [c])) (hl : l ≠ []) : IsNumeral l := by
  rcases h with h | h
  · exact .inl (h.of_concat hl)
  · rcases isPointed_concat.mp h with ⟨h, _⟩ | ⟨h, _⟩
    · exact .inl h
    · exact .inr h

theorem IsRun.of_concat {l : List Char} {c : Char} (h : IsRun (l ++ [c])) (hl : l ≠ []) : IsRun l := by
  rcases h with h | h | h
  · exact .inl (h.of_concat hl)
  · exact .inr (.inl (h.of_concat hl))
  · exact .inr (.inr (h.of_concat hl))

/-- A run and what continues it are of the same kind. -/
theorem IsNumeral.isRun_concat_iff {l : List Char} {c : Char} (h : IsNumeral l) :
    IsRun (l ++ [c]) ↔ IsNumeral (l ++ [c]) :=
  ⟨fun hr => hr.resolve_right fun hr => hr.elim (fun hm => h.not_minus (hm.of_concat h.ne_nil))
    fun hl => h.not_letters (hl.of_concat h.ne_nil), .inl⟩

theorem isRun_concat_minus_iff {l : List Char} {c : Char} (h : IsRunOf (· == '-') l) :
    IsRun (l ++ [c]) ↔ IsRunOf (· == '-') (l ++ [c]) :=
  ⟨fun hr => (hr.resolve_left fun hn => (hn.of_concat h.1).not_minus h).resolve_right fun hl =>
    not_letters_of_minus h (hl.of_concat h.1), fun h => .inr (.inl h)⟩

theorem isRun_concat_letters_iff {l : List Char} {c : Char} (h : IsRunOf Char.isLower l) :
    IsRun (l ++ [c]) ↔ IsRunOf Char.isLower (l ++ [c]) :=
  ⟨fun hr => (hr.resolve_left fun hn => (hn.of_concat h.1).not_letters h).resolve_left fun hm =>
    not_letters_of_minus (hm.of_concat h.1) h, fun h => .inr (.inr h)⟩

theorem RunTogether.of_concat {k l : List Char} {c : Char} (h : RunTogether k (l ++ [c])) (hl : l ≠ []) :
    RunTogether k l := by
  rcases h with ⟨hk, h⟩ | ⟨hk, h⟩ | ⟨hk, h⟩
  · exact .inl ⟨hk, h.of_concat hl⟩
  · exact .inr (.inl ⟨hk, h.of_concat hl⟩)
  · exact .inr (.inr ⟨hk, h.of_concat hl⟩)

theorem RunTogether.isRun {k l : List Char} : RunTogether k l → IsRun k
  | .inl h => .inl h.1
  | .inr (.inl h) => .inr (.inl h.1)
  | .inr (.inr h) => .inr (.inr h.1)

/-- A run may be continued by a character that would touch it as a run of the same kind. -/
theorem RunTogether.isRun_concat {l : List Char} {c : Char} (h : RunTogether l [c]) : IsRun (l ++ [c]) := by
  rcases h with ⟨h, hc⟩ | ⟨h, hc⟩ | ⟨h, hc⟩
  · have hd := isNumeral_singleton.mp hc
    rcases h with h | h
    · exact .inl (.inl (isRunOf_concat.mpr ⟨.inr h, hd⟩))
    · exact .inl (.inr (isPointed_concat.mpr (.inr ⟨h, hd⟩)))
  · exact .inr (.inl (isRunOf_concat.mpr ⟨.inr h, hc.head⟩))
  · exact .inr (.inr (isRunOf_concat.mpr ⟨.inr h, hc.head⟩))

/-! ### Spellings -/

theorem isRunOf_name (f : Function) : IsRunOf Char.isLower f.name.toList := by
  cases f <;> simp [IsRunOf, Function.name]

theorem symbolToken?_eq_some_iff {c : Char} {t : Token} :
    symbolToken? c = some t ↔ ¬ IsRun [c] ∧ Spells [c] t := by
  constructor
  · intro h
    rw [isRun_singleton]
    unfold symbolToken? at h
    split at h <;> simp only [Option.some.injEq, reduceCtorEq] at h <;> subst h
    · exact ⟨by decide, .plus⟩
    · exact ⟨by decide, .times⟩
    · exact ⟨by decide, .slash⟩
    · exact ⟨by decide, .caret⟩
    · exact ⟨by decide, .leftParen⟩
    · exact ⟨by decide, .rightParen⟩
  · rintro ⟨hrun, h⟩
    generalize hl : [c] = l at h hrun
    cases h with
    | number h => exact absurd (.inl h) hrun
    | oddMinus h => exact absurd (.inr (.inl h)) hrun
    | evenMinus h => exact absurd (.inr (.inl h)) hrun
    | sci => exact absurd (.inr (.inr (by simp [IsRunOf]))) hrun
    | function f => exact absurd (.inr (.inr (isRunOf_name f))) hrun
    | _ => cases hl; rfl

theorem wordToken?_eq_some_iff {word : String} {t : Token} :
    wordToken? word = some t ↔ word = "e" ∧ t = .operator .sci ∨ ∃ f : Function, word = f.name ∧ t = .function f := by
  unfold wordToken?
  split
  · rename_i h
    subst h
    have hf : ∀ f : Function, "e" ≠ f.name := by
      intro f
      cases f <;> decide
    simp [hf, eq_comm]
  · rename_i h
    simp only [h, false_and, false_or, Option.map_eq_some_iff, Function.ofName?_eq_some_iff]
    exact exists_congr fun f => and_congr eq_comm eq_comm

/-- The spelled lexemes are runs of one of the three kinds, or symbols. -/
theorem Spells.kind {l : List Char} {t : Token} (h : Spells l t) :
    IsNumeral l ∧ t = .number (String.ofList l) ∨
      IsRunOf (· == '-') l ∧ t = .operator (if l.length % 2 == 1 then .sub else .add) ∨
      IsRunOf Char.isLower l ∧ wordToken? (String.ofList l) = some t ∨ ∃ c, l = [c] ∧ symbolToken? c = some t := by
  cases h with
  | number h => exact .inl ⟨h, rfl⟩
  | oddMinus h hl => exact .inr (.inl ⟨h, by simp [hl]⟩)
  | evenMinus h hl => exact .inr (.inl ⟨h, by simp [hl]⟩)
  | sci => exact .inr (.inr (.inl ⟨by simp [IsRunOf], wordToken?_eq_some_iff.mpr (.inl ⟨rfl, rfl⟩)⟩))
  | function f => exact .inr (.inr (.inl ⟨isRunOf_name f, wordToken?_eq_some_iff.mpr (.inr ⟨f, by simp, rfl⟩)⟩))
  | _ => exact .inr (.inr (.inr ⟨_, rfl, rfl⟩))

theorem spells_numeral_iff {l : List Char} {t : Token} (h : IsNumeral l) :
    Spells l t ↔ t = .number (String.ofList l) := by
  constructor
  · intro ht
    rcases ht.kind with ⟨_, rfl⟩ | ⟨hm, _⟩ | ⟨hl, _⟩ | ⟨c, rfl, hc⟩
    · rfl
    · exact absurd hm h.not_minus
    · exact absurd hl h.not_letters
    · exact absurd (.inl h) (symbolToken?_eq_some_iff.mp hc).1
  · rintro rfl
    exact .number h

theorem spells_minus_iff {l : List Char} {t : Token} (h : IsRunOf (· == '-') l) :
    Spells l t ↔ t = .operator (if l.length % 2 == 1 then .sub else .add) := by
  constructor
  · intro ht
    rcases ht.kind with ⟨hn, _⟩ | ⟨_, rfl⟩ | ⟨hl, _⟩ | ⟨c, rfl, hc⟩
    · exact absurd h hn.not_minus
    · rfl
    · exact absurd hl (not_letters_of_minus h)
    · exact absurd (.inr (.inl h)) (symbolToken?_eq_some_iff.mp hc).1
  · rintro rfl
    rcases Nat.mod_two_eq_zero_or_one l.length with hl | hl
    · simpa [hl] using Spells.evenMinus h hl
    · simpa [hl] using Spells.oddMinus h hl

theorem spells_letters_iff {l : List Char} {t : Token} (h : IsRunOf Char.isLower l) :
    Spells l t ↔ wordToken? (String.ofList l) = some t := by
  constructor
  · intro ht
    rcases ht.kind with ⟨hn, _⟩ | ⟨hm, _⟩ | ⟨_, ht⟩ | ⟨c, rfl, hc⟩
    · exact absurd h hn.not_letters
    · exact absurd h (not_letters_of_minus hm)
    · exact ht
    · exact absurd (.inr (.inr h)) (symbolToken?_eq_some_iff.mp hc).1
  · intro ht
    rcases wordToken?_eq_some_iff.mp ht with ⟨hl, rfl⟩ | ⟨f, hl, rfl⟩
    · obtain rfl : l = ['e'] := by simpa using congrArg String.toList hl
      exact .sci
    · obtain rfl : l = f.name.toList := by simpa using congrArg String.toList hl
      exact .function f

theorem Spells.isRun_or_singleton {l : List Char} {t : Token} (h : Spells l t) : IsRun l ∨ ∃ c, l = [c] := by
  rcases h.kind with ⟨h, _⟩ | ⟨h, _⟩ | ⟨h, _⟩ | ⟨c, h, _⟩
  · exact .inl (.inl h)
  · exact .inl (.inr (.inl h))
  · exact .inl (.inr (.inr h))
  · exact .inr ⟨c, h⟩

theorem Spells.ne_nil {l : List Char} {t : Token} (h : Spells l t) : l ≠ [] := by
  rcases h.isRun_or_singleton with h | ⟨c, rfl⟩
  · exact h.ne_nil
  · simp

/-- A lexeme spells one token only. -/
theorem Spells.unique {l : List Char} {t t' : Token} (h : Spells l t) (h' : Spells l t') : t = t' := by
  rcases h.kind with ⟨hl, rfl⟩ | ⟨hl, rfl⟩ | ⟨hl, ht⟩ | ⟨c, rfl, ht⟩
  · exact ((spells_numeral_iff hl).mp h').symm
  · exact ((spells_minus_iff hl).mp h').symm
  · exact Option.some.inj (ht.symm.trans ((spells_letters_iff hl).mp h'))
  · have hc := (symbolToken?_eq_some_iff.mp ht).1
    exact Option.some.inj (ht.symm.trans (symbolToken?_eq_some_iff.mpr ⟨hc, h'⟩))

/-- The first character of a lexeme tells its kind. -/
theorem Spells.head {c : Char} {l : List Char} {t : Token} (h : Spells (c :: l) t) :
    (c.isDigit → IsNumeral (c :: l)) ∧ c ≠ '.' ∧ (c = '-' → IsRunOf (· == '-') (c :: l)) ∧
      (c.isLower → IsRunOf Char.isLower (c :: l)) := by
  rcases h.kind with ⟨h, _⟩ | ⟨h, _⟩ | ⟨h, _⟩ | ⟨d, hd, h⟩
  · have hc := h.head
    exact ⟨fun _ => h, by rintro rfl; simp at hc, by rintro rfl; simp at hc,
      fun hl => absurd hl (not_isLower_of_isDigit hc)⟩
  · obtain rfl : c = '-' := by simpa using h.head
    exact ⟨by simp, by decide, fun _ => h, by simp⟩
  · have hc := h.head
    exact ⟨fun hd => absurd hc (not_isLower_of_isDigit hd), by rintro rfl; simp at hc, by rintro rfl; simp at hc,
      fun _ => h⟩
  · obtain ⟨rfl, -⟩ := List.cons.inj hd
    have hc := (symbolToken?_eq_some_iff.mp h).1
    rw [isRun_singleton] at hc
    exact ⟨fun h => absurd (.inl h) hc, by rintro rfl; simp [symbolToken?] at h, fun h => absurd (.inr (.inl h)) hc,
      fun h => absurd (.inr (.inr h)) hc⟩

/-- A run and the lexeme whose first character could continue it are of the same kind. -/
theorem IsRun.runTogether {k l : List Char} {c : Char} {t : Token} (h : IsRun (k ++ [c])) (hk : k ≠ [])
    (ht : Spells (c :: l) t) : RunTogether k (c :: l) := by
  obtain ⟨hdigit, hpoint, hminus, hlower⟩ := ht.head
  rcases h with h | h | h
  · exact .inl ⟨h.of_concat hk, hdigit (h.last.resolve_right hpoint)⟩
  · exact .inr (.inl ⟨h.of_concat hk, hminus (by simpa using (isRunOf_concat.mp h).2)⟩)
  · exact .inr (.inr ⟨h.of_concat hk, hlower (isRunOf_concat.mp h).2⟩)

/-! ### White space and the end of a cut -/

/-- White space belongs to no lexeme. -/
theorem not_isRun_concat_of_isWhiteSpace {l : List Char} {c : Char} (h : isWhiteSpace c) : ¬ IsRun (l ++ [c]) := by
  intro hl
  rcases hl.last with hc | rfl | rfl | hc
  · rw [isDigit_iff] at hc
    simp [isWhiteSpace] at h
    omega
  · simp [isWhiteSpace] at h
  · simp [isWhiteSpace] at h
  · rw [isLower_iff] at hc
    simp [isWhiteSpace] at h
    omega

theorem not_spells_of_isWhiteSpace {c : Char} {t : Token} (h : isWhiteSpace c) : ¬ Spells [c] t := by
  intro ht
  have hc := symbolToken?_eq_some_iff.mpr ⟨not_isRun_concat_of_isWhiteSpace (l := []) h, ht⟩
  unfold symbolToken? at hc
  split at hc <;> simp [isWhiteSpace] at h hc

/-- A small letter at the end of a lexeme belongs to a letter run. -/
theorem Spells.isRunOf_isLower {l : List Char} {t : Token} {c : Char} (h : Spells (l ++ [c]) t) (hc : c.isLower) :
    IsRunOf Char.isLower (l ++ [c]) := by
  rcases h.kind with ⟨h, _⟩ | ⟨h, _⟩ | ⟨h, _⟩ | ⟨d, hd, h⟩
  · rcases h.last with h | rfl
    · exact absurd hc (not_isLower_of_isDigit h)
    · simp at hc
  · obtain rfl : c = '-' := by simpa using (isRunOf_concat.mp h).2
    simp at hc
  · exact h
  · obtain ⟨rfl, rfl⟩ : l = [] ∧ c = d := by simpa [List.append_eq_singleton_iff] using hd
    exact absurd (isRun_singleton.mpr (.inr (.inr hc))) (symbolToken?_eq_some_iff.mp h).1

theorem Cut.isRunOf_last {text : List Char} {tokens : List Token} {last : List Char} (h : Cut text tokens last)
    {c : Char} (hc : c ∈ text.getLast?) (hl : c.isLower) : IsRunOf Char.isLower last := by
  cases h with
  | nil => simp at hc
  | blank h hw =>
    obtain rfl : _ = c := by simpa using hc
    exact absurd (isRun_singleton.mpr (.inr (.inr hl))) (not_isRun_concat_of_isWhiteSpace (l := []) hw)
  | lexeme h ht _ =>
    rcases List.eq_nil_or_concat last with rfl | ⟨last, d, rfl⟩
    · exact absurd rfl ht.ne_nil
    · rw [List.concat_eq_append] at ht hc ⊢
      obtain rfl : d = c := by simpa using hc
      exact ht.isRunOf_isLower hl

theorem Cut.exists_append_last {text : List Char} {tokens : List Token} {last : List Char} (h : Cut text tokens last) :
    ∃ before, text = before ++ last := by
  cases h with
  | nil => exact ⟨[], rfl⟩
  | blank => exact ⟨_, (List.append_nil _).symm⟩
  | lexeme => exact ⟨_, rfl⟩

/-- A letter run that follows no small letter does not continue the lexeme before it. -/
theorem Cut.not_isRun_concat {text : List Char} {tokens : List Token} {last : List Char} (h : Cut text tokens last)
    (htext : ∀ c ∈ text.getLast?, ¬ c.isLower) {c : Char} (hc : c.isLower) :
    EndsBefore last c := by
  obtain ⟨before, rfl⟩ := h.exists_append_last
  rcases List.eq_nil_or_concat last with rfl | ⟨last, d, rfl⟩
  · exact .inl rfl
  rw [List.concat_eq_append] at htext ⊢
  refine .inr fun hrun => htext d (by simp) ?_
  have hletters : IsRunOf Char.isLower (last ++ [d] ++ [c]) := by
    rcases hrun with hrun | hrun | hrun
    · rcases hrun.last with hd | rfl
      · exact absurd hc (not_isLower_of_isDigit hd)
      · simp at hc
    · obtain rfl : c = '-' := by simpa using (isRunOf_concat.mp hrun).2
      simp at hc
    · exact hrun
  exact hletters.2 d (by simp)

end Calculator
