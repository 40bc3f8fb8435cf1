import Calculator.Proofs.Number.PlainText
import Calculator.Proofs.Syntax.Limits
import Calculator.Proofs.Token.Writing

/-!
# Number tokens and literals

A text is refused as a literal exactly if it is no numeral (`readNumber_eq_invalidNumber_iff`), and the tokens of a text
are that text as one number exactly if it is a numeral (`tokenize_eq_number_iff`).

* The error of an invalid number stands for a number token of the list that is no numeral (`turn_invalidNumber`,
  `run_invalidNumber`, `parse_invalidNumber`), and the tokens of a text have none such.
* Numerals are a small part of the texts that can be converted to binary64 (`IsNumeral.isConvertible`), so that nothing
  is left to be refused in the conversion.
-/

namespace Calculator

/-! ### Texts that can be converted -/

/-- Nothing, a plus or a minus. -/
def IsSign (l : List Char) : Prop :=
  l = [] ∨ l = ['+'] ∨ l = ['-']

/-- Digits with or without a point, at least one digit before it or behind it. -/
def IsMantissa (l : List Char) : Prop :=
  IsNumeral l ∨
    ∃ whole fraction, (∀ c ∈ whole, c.isDigit) ∧ IsRunOf Char.isDigit fraction ∧ l = whole ++ '.' :: fraction

/-- Nothing, or `e` in either case, possibly a sign, and digits. -/
def IsExponent (l : List Char) : Prop :=
  l = [] ∨ ∃ c sign digits, (c = 'e' ∨ c = 'E') ∧ IsSign sign ∧ IsRunOf Char.isDigit digits ∧ l = c :: (sign ++ digits)

/-- The texts that the general conversion of decimals to binary64 takes: possibly a sign, and then a mantissa with
possibly an exponent, or infinity or NaN by name, in letters of either case. -/
def IsConvertible (l : List Char) : Prop :=
  ∃ sign body, IsSign sign ∧ l = sign ++ body ∧
    ((∃ mantissa exponent, IsMantissa mantissa ∧ IsExponent exponent ∧ body = mantissa ++ exponent) ∨
      body.map Char.toLower ∈ ["inf".toList, "infinity".toList, "nan".toList])

theorem IsNumeral.isConvertible {l : List Char} (h : IsNumeral l) : IsConvertible l := by
  have hmantissa : IsMantissa l := .inl h
  exact ⟨[], l, .inl rfl, rfl, .inl ⟨l, [], hmantissa, .inl rfl, (List.append_nil l).symm⟩⟩

/-! ### Number texts -/

/-- A text is malformed exactly if it is no numeral; the conversion finds no further fault but its size. -/
theorem readLiteral_eq_malformed_iff {l : List Char} : readLiteral l = .error .malformed ↔ ¬IsNumeral l := by
  rw [← isLiteral_iff, readLiteral]
  by_cases h : isLiteral l
  · rw [if_pos h]
    split <;> simp [h]
  · simp [h]

/-- A number is invalid exactly if it is no numeral. -/
theorem readNumber_eq_invalidNumber_iff {x text : String} {p q : Nat} :
    readNumber x p = .error (.invalidNumber text q) ↔ ¬IsNumeral x.toList ∧ x = text ∧ p = q := by
  rw [← readLiteral_eq_malformed_iff, readNumber]
  cases readLiteral x.toList with
  | ok m => simp
  | error fault => cases fault <;> simp

/-- The tokens of a text are the text itself as a number exactly if it is a numeral. -/
theorem tokenize_eq_number_iff {x : String} : tokenize x = .ok [.number x] ↔ IsNumeral x.toList := by
  rw [tokenize_eq_ok]
  constructor
  · rintro ⟨last, hcut⟩
    exact hcut.isWritable (.number x) (by simp)
  · intro h
    have hcut := isCutInto_lexeme (.number h)
    rwa [String.ofList_toList] at hcut

/-! ### Errors at numbers -/

section

variable {text : String} {q : Nat}

theorem conclude_ne_invalidNumber (p : Nat) (frames : List Frame) (e : Expr) :
    (conclude p frames e).2 ≠ .error (.invalidNumber text q) := by
  unfold conclude
  cases hf : (settle Level.sum.strength frames e).frames <;> simp [hf]

/-- A turn ends with an invalid number only at that number. -/
theorem turn_invalidNumber {reading : Reading} {s : Setting} {p : Nat} {t : Token} {consumed : Bool}
    (h : (reading.turn s p t).move = .halt (.error (.invalidNumber text q)) consumed) :
    t = .number text ∧ ¬IsNumeral text.toList := by
  cases reading with
  | wanting frames =>
    cases t with
    | number x =>
      cases hx : readNumber x p with
      | ok v => simp [Reading.turn, hx] at h
      | error error =>
        obtain ⟨rfl, -⟩ : error = .invalidNumber text q ∧ _ := by simpa [Reading.turn, hx] using h
        obtain ⟨hnumeral, rfl, -⟩ := readNumber_eq_invalidNumber_iff.1 hx
        exact ⟨rfl, hnumeral⟩
    | leftParen => simp [Reading.turn] at h
    | rightParen | operator op | function f =>
      simp only [Reading.turn] at h
      split at h <;> simp at h
  | complete frames e =>
    cases t with
    | operator op =>
      simp only [Reading.turn] at h
      split at h <;> simp at h
    | rightParen =>
      simp only [Reading.turn] at h
      split at h <;> simp at h
    | number text' | leftParen | function f =>
      obtain ⟨hresult, -⟩ := Move.halt.inj h
      exact absurd hresult (conclude_ne_invalidNumber p frames e)

/-- A run ends with an invalid number only if it is among the tokens. -/
theorem run_invalidNumber {permits : Event → Bool} {s : Setting} {ended : SyntaxError} {reading : Reading} {p : Nat}
    {ts : List Token} (hended : ended ≠ .invalidNumber text q)
    (h : (reading.run permits s ended p ts).result = .error (.invalidNumber text q)) :
    .number text ∈ ts ∧ ¬IsNumeral text.toList := by
  induction ts generalizing reading p with
  | nil =>
    cases reading with
    | wanting frames => exact absurd (Except.error.inj h) hended
    | complete frames e =>
      simp only [Reading.run, Reading.finish] at h
      cases hcheck : checkAll permits (conclude p frames e).1 with
      | error refusal =>
        obtain ⟨r, rfl⟩ := checkAll_eq_error hcheck
        simp [hcheck, bind, Except.bind] at h
      | ok =>
        rw [hcheck] at h
        exact absurd h (conclude_ne_invalidNumber p frames e)
  | cons t ts ih =>
    simp only [Reading.run] at h
    cases hcheck : checkAll permits (reading.turn s p t).events with
    | error refusal =>
      obtain ⟨r, rfl⟩ := checkAll_eq_error hcheck
      simp [hcheck] at h
    | ok =>
      cases hmove : (reading.turn s p t).move with
      | halt result consumed =>
        obtain rfl : result = .error (.invalidNumber text q) := by simpa [hcheck, hmove] using h
        obtain ⟨rfl, hnumeral⟩ := turn_invalidNumber hmove
        exact ⟨List.mem_cons_self, hnumeral⟩
      | next reading' =>
        simp only [hcheck, hmove] at h
        obtain ⟨hmem, hnumeral⟩ := ih h
        exact ⟨List.mem_cons_of_mem t hmem, hnumeral⟩

theorem endOfInput_ne_invalidNumber (c : Cursor) : c.endOfInput ≠ .invalidNumber text q := by
  unfold Cursor.endOfInput
  split
  · simp
  · split <;> simp

/-- A list is refused for an invalid number only if it is among the tokens. -/
theorem parse_invalidNumber {tokens : List Token} (h : parse tokens = .error (.invalidNumber text q)) :
    .number text ∈ tokens ∧ ¬IsNumeral text.toList := by
  cases hread : (Cursor.readWith Event.withinLimits { tokens } .sum).1 with
  | error error =>
    obtain rfl : error = .invalidNumber text q := by simpa [parse, parseWith, hread, bind, Except.bind] using h
    exact run_invalidNumber (endOfInput_ne_invalidNumber _) hread
  | ok e =>
    simp only [parse, parseWith, hread, bind, Except.bind] at h
    split at h <;> simp at h

end

/-! ### The tokens of a text -/

/-- A text is no invalid number exactly if it is its own and only token.  So no list of the tokens of a text is refused
for an invalid number, and what has the form of a literal is a text that can be converted and is not refused as
malformed. -/
theorem readNumber_iff_tokenize :
    (∀ (x : String) (p : Nat),
      (∀ text q, readNumber x p ≠ .error (.invalidNumber text q)) ↔ tokenize x = .ok [.number x]) ∧
      (∀ (source : String) (tokens : List Token), tokenize source = .ok tokens →
        ∀ text q, parse tokens ≠ .error (.invalidNumber text q)) ∧
      ∀ l, isLiteral l → IsConvertible l ∧ readLiteral l ≠ .error .malformed := by
  refine ⟨fun x p => ?_, fun source tokens hsource text q herror => ?_, fun l hl => ?_⟩
  · rw [tokenize_eq_number_iff]
    constructor
    · intro h
      by_contra hnot
      exact h x p (readNumber_eq_invalidNumber_iff.2 ⟨hnot, rfl, rfl⟩)
    · intro h text q herror
      exact (readNumber_eq_invalidNumber_iff.1 herror).1 h
  · obtain ⟨last, hcut⟩ := tokenize_eq_ok.mp hsource
    obtain ⟨hmem, hnumeral⟩ := parse_invalidNumber herror
    exact hnumeral (hcut.isWritable _ hmem)
  · have hnumeral := isLiteral_iff.1 hl
    exact ⟨hnumeral.isConvertible, fun herror => readLiteral_eq_malformed_iff.1 herror hnumeral⟩

/-- White space before a number is skipped between tokens and is refused in a literal.  In `4. 07.50` the second number
is one too many, but not invalid. -/
theorem readNumber_iff_tokenize_spaced :
    tokenize " 4." = .ok [.number "4."] ∧ readNumber " 4." 2 = .error (.invalidNumber " 4." 2) ∧
      tokenize "4. 07.50" = .ok [.number "4.", .number "07.50"] ∧
      parse [.number "4.", .number "07.50"] = .error (.trailingTokens (.number "07.50") 1) ∧
      (∀ text q, parse [.number "4.", .number "07.50"] ≠ .error (.invalidNumber text q)) ∧
      IsConvertible "07.50".toList := by
  have hspace : tokenize " 4." = .ok [.number "4."] := by decide +kernel
  have hnumbers : tokenize "4. 07.50" = .ok [.number "4.", .number "07.50"] := by decide +kernel
  obtain ⟨-, hparse, hliteral⟩ := readNumber_iff_tokenize
  exact ⟨hspace, by decide +kernel, hnumbers, by decide +kernel, hparse _ _ hnumbers,
    (hliteral "07.50".toList (by decide +kernel)).1⟩

end Calculator
