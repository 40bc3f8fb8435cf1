import Calculator.Proofs.Token.LexicalGrammar
import Mathlib.Data.List.Induction

/-!
# The scan decides the lexical grammar

* `Scan.Reads.step`: every character takes the scan to a state that reads the text up to it, or is the place of a
  fault;
* `Cut.foldlM`: the scan passes through every cut;
* `tokenize_eq_iff`: a text has exactly the tokens of its cut, and exactly the error of its fault.
-/

namespace Calculator

/-! ### Lexemes -/

namespace Lexeme

/-- The lexeme has been read as `l`. -/
def Holds : Lexeme → List Char → Prop
  | closed, l => l = []
  | whole text, l => text = l.reverse ∧ IsRunOf Char.isDigit l
  | fraction text, l => text = l.reverse ∧ IsPointed l
  | minus odd, l => odd = (l.length % 2 == 1) ∧ IsRunOf (· == '-') l
  | word text, l => text = l.reverse ∧ IsRunOf Char.isLower l

theorem Holds.isRun {lexeme : Lexeme} {l : List Char} (h : lexeme.Holds l) (hl : l ≠ []) : IsRun l := by
  cases lexeme with
  | closed => exact absurd h hl
  | whole => exact .inl (.inl h.2)
  | fraction => exact .inl (.inr h.2)
  | minus => exact .inr (.inl h.2)
  | word => exact .inr (.inr h.2)

theorem Holds.eq_closed {lexeme : Lexeme} (h : lexeme.Holds []) : lexeme = closed := by
  cases lexeme with
  | closed => rfl
  | whole => exact absurd rfl h.2.1
  | fraction => obtain ⟨_, _, _, _, _, h⟩ := h; simp at h
  | minus => exact absurd rfl h.2.1
  | word => exact absurd rfl h.2.1

/-- A character extends a lexeme exactly if that makes a run. -/
theorem Holds.extend? {lexeme : Lexeme} {l : List Char} (h : lexeme.Holds l) (c : Char) :
    (∃ next, lexeme.extend? c = some next ∧ next.Holds (l ++ [c])) ∨
      lexeme.extend? c = none ∧ EndsBefore l c := by
  unfold EndsBefore
  cases lexeme with
  | closed => exact .inr ⟨rfl, .inl h⟩
  | whole text =>
    obtain ⟨rfl, h⟩ := h
    rw [IsNumeral.isRun_concat_iff (.inl h), IsNumeral, isRunOf_concat, isPointed_concat]
    by_cases hd : c.isDigit
    · exact .inl ⟨whole (c :: l.reverse), by simp [Lexeme.extend?, hd], by simp, isRunOf_concat.mpr ⟨.inr h, hd⟩⟩
    by_cases hc : c = '.'
    · exact .inl ⟨fraction (c :: l.reverse), by simp [Lexeme.extend?, hc], by simp, isPointed_concat.mpr (.inl ⟨h, hc⟩)⟩
    · exact .inr ⟨by simp [Lexeme.extend?, hd, hc], .inr (by simp [hd, hc])⟩
  | fraction text =>
    obtain ⟨rfl, h⟩ := h
    rw [IsNumeral.isRun_concat_iff (.inr h), IsNumeral, isRunOf_concat, isPointed_concat]
    by_cases hd : c.isDigit
    · exact .inl ⟨fraction (c :: l.reverse), by simp [Lexeme.extend?, hd], by simp, isPointed_concat.mpr (.inr ⟨h, hd⟩)⟩
    · exact .inr ⟨by simp [Lexeme.extend?, hd], .inr (by simp [hd, h.not_digits])⟩
  | minus odd =>
    obtain ⟨rfl, h⟩ := h
    rw [isRun_concat_minus_iff h, isRunOf_concat]
    by_cases hc : c = '-'
    · refine .inl ⟨minus (!(l.length % 2 == 1)), by simp [Lexeme.extend?, hc], ?_,
        isRunOf_concat.mpr ⟨.inr h, by simp [hc]⟩⟩
      rcases Nat.mod_two_eq_zero_or_one l.length with hl | hl <;> simp [Nat.add_mod, hl]
    · exact .inr ⟨by simp [Lexeme.extend?, hc], .inr (by simp [hc])⟩
  | word text =>
    obtain ⟨rfl, h⟩ := h
    rw [isRun_concat_letters_iff h, isRunOf_concat]
    by_cases hc : c.isLower
    · exact .inl ⟨word (c :: l.reverse), by simp [Lexeme.extend?, hc], by simp, isRunOf_concat.mpr ⟨.inr h, hc⟩⟩
    · exact .inr ⟨by simp [Lexeme.extend?, hc], .inr (by simp [hc])⟩

theorem start?_cases (c : Char) :
    (∃ lexeme, start? c = some lexeme ∧ lexeme.Holds [c]) ∨ start? c = none ∧ ¬ IsRun [c] := by
  rw [isRun_singleton]
  unfold start?
  split
  · rename_i h
    exact .inl ⟨_, rfl, rfl, by simp, by simpa using h⟩
  split
  · rename_i h
    exact .inl ⟨_, rfl, rfl, by simp, by simpa using h⟩
  split
  · rename_i h
    exact .inl ⟨_, rfl, rfl, by simp, by simpa using h⟩
  · simp_all

end Lexeme

namespace Scan

variable {s : Scan} {l : List Char}

/-! ### Steps -/

theorem step_of_extend {c : Char} {lexeme : Lexeme} (h : s.lexeme.extend? c = some lexeme) :
    s.step c = .ok ⟨s.tokens, lexeme, s.position + 1⟩ := by
  simp [step, h]

theorem step_of_close {c : Char} {closed : Scan} (h : s.lexeme.extend? c = none) (hclose : s.close = .ok closed) :
    s.step c = closed.start c := by
  simp [step, h, hclose, bind, Except.bind]

theorem step_of_close_error {c : Char} {e : LexicalError} (h : s.lexeme.extend? c = none)
    (hclose : s.close = .error e) : s.step c = .error e := by
  simp [step, h, hclose, bind, Except.bind]

theorem close_cases (h : s.lexeme.Holds l) (hl : l ≠ []) :
    (∃ t, Spells l t ∧ s.close = .ok ⟨s.tokens.push t, .closed, s.position⟩) ∨
      IsRunOf Char.isLower l ∧ (∀ t, ¬ Spells l t) ∧
        s.close = .error (.invalidFunctionName (String.ofList l) s.position) := by
  rcases s with ⟨tokens, lexeme, position⟩
  cases lexeme with
  | closed => exact absurd h hl
  | whole text =>
    obtain ⟨rfl, h⟩ := h
    exact .inl ⟨_, .number (.inl h), by simp [close]⟩
  | fraction text =>
    obtain ⟨rfl, h⟩ := h
    exact .inl ⟨_, .number (.inr h), by simp [close]⟩
  | minus odd =>
    obtain ⟨rfl, h⟩ := h
    exact .inl ⟨_, (spells_minus_iff h).mpr rfl, rfl⟩
  | word text =>
    obtain ⟨rfl, h⟩ := h
    cases ht : wordToken? (String.ofList l) with
    | some t => exact .inl ⟨t, (spells_letters_iff h).mpr ht, by simp [close, ht]⟩
    | none => exact .inr ⟨h, fun t => by simp [spells_letters_iff h, ht], by simp [close, ht]⟩

theorem start_cases (h : s.lexeme = .closed) (c : Char) :
    (∃ lexeme : Lexeme, lexeme.Holds [c] ∧ s.start c = .ok ⟨s.tokens, lexeme, s.position + 1⟩) ∨
      ¬ IsRun [c] ∧ ((∃ t, Spells [c] t ∧ s.start c = .ok ⟨s.tokens.push t, .closed, s.position + 1⟩) ∨
        (∀ t, ¬ Spells [c] t) ∧ (isWhiteSpace c ∧ s.start c = .ok ⟨s.tokens, .closed, s.position + 1⟩ ∨
          ¬ isWhiteSpace c ∧ s.start c = .error (.invalidCharacter c s.position))) := by
  rcases s with ⟨tokens, lexeme, position⟩
  obtain rfl : lexeme = .closed := h
  rcases Lexeme.start?_cases c with ⟨lexeme, hstart, hholds⟩ | ⟨hstart, hrun⟩
  · exact .inl ⟨lexeme, hholds, by simp [start, hstart]⟩
  · refine .inr ⟨hrun, ?_⟩
    cases hc : symbolToken? c with
    | some t => exact .inl ⟨t, (symbolToken?_eq_some_iff.mp hc).2, by simp [start, hstart, hc]⟩
    | none =>
      refine .inr ⟨fun t ht => ?_, ?_⟩
      · simp [symbolToken?_eq_some_iff.mpr ⟨hrun, ht⟩] at hc
      · by_cases hw : isWhiteSpace c <;> simp [start, hstart, hc, hw]

theorem foldlM_append_of_ok {a b : List Char} {s' : Scan} (h : a.foldlM step s = .ok s') :
    (a ++ b).foldlM step s = b.foldlM step s' := by
  simp [List.foldlM_append, h, bind, Except.bind]

/-! ### Soundness -/

/-- The scan has read `text`: its tokens cut a part of it, and its lexeme is the rest. -/
def Reads (s : Scan) (text : List Char) : Prop :=
  s.position = text.length ∧ ∃ before last l, text = before ++ l ∧ Cut before s.tokens.toList last ∧
    s.lexeme.Holds l ∧ ¬ RunTogether last l ∧ (l = [] → ¬ IsRun last)

theorem reads_nil : ({} : Scan).Reads [] :=
  ⟨rfl, [], [], [], rfl, .nil, rfl, fun h => h.isRun.ne_nil rfl, fun _ h => h.ne_nil rfl⟩

theorem Reads.close {text : List Char} (h : s.Reads text) :
    (∃ tokens last, s.close = .ok ⟨tokens, .closed, text.length⟩ ∧ Cut text tokens.toList last ∧
        ∀ c, s.lexeme.extend? c = none → EndsBefore last c) ∨
      ∃ e, s.close = .error e ∧
        ∀ after, (∀ c ∈ after.head?, s.lexeme.extend? c = none) → Fault (text ++ after) e := by
  rcases s with ⟨tokens, lexeme, position⟩
  obtain ⟨rfl, before, last, l, rfl, hcut, hholds, htogether, hrun⟩ := h
  by_cases hl : l = []
  · subst hl
    -- there is nothing to close, and the lexeme before is no run
    obtain rfl : lexeme = .closed := hholds.eq_closed
    refine .inl ⟨tokens, last, rfl, by simpa using hcut, fun c _ => ?_⟩
    by_cases hlast : last = []
    · exact .inl hlast
    · exact .inr fun hc => hrun rfl (hc.of_concat hlast)
  have hends : ∀ c, lexeme.extend? c = none → EndsBefore l c := by
    intro c hc
    rcases hholds.extend? c with ⟨next, hnext, _⟩ | ⟨_, hends⟩
    · simp [hc] at hnext
    · exact hends
  rcases close_cases hholds hl with ⟨t, ht, hclose⟩ | ⟨hletters, ht, hclose⟩
  · refine .inl ⟨_, l, hclose, ?_, hends⟩
    simpa using hcut.lexeme ht htogether
  · refine .inr ⟨_, hclose, fun after hafter => ?_⟩
    have hbefore : ∀ c ∈ before.getLast?, ¬ c.isLower := fun c hc hlower =>
      htogether (.inr (.inr ⟨hcut.isRunOf_last hc hlower, hletters⟩))
    have hnext : ∀ c ∈ after.head?, ¬ c.isLower := fun c hc hlower =>
      (hends c (hafter c hc)).resolve_left hl (.inr (.inr (isRunOf_concat.mpr ⟨.inr hletters, hlower⟩)))
    have := Fault.functionName hcut hbefore hnext hletters ?_ ?_
    · simpa using this
    · rintro rfl
      exact ht _ .sci
    · rintro f rfl
      exact ht _ (.function f)

/-- After a cut, a character that does not continue the last lexeme starts one, is a token, separates or is the
place of a fault. -/
theorem start_of_cut {text last : List Char} {tokens : Array Token} {c : Char} (h : Cut text tokens.toList last)
    (hc : EndsBefore last c) :
    (∃ next, start ⟨tokens, .closed, text.length⟩ c = .ok next ∧ next.Reads (text ++ [c])) ∨
      ∃ e, start ⟨tokens, .closed, text.length⟩ c = .error e ∧ ∀ after, Fault (text ++ c :: after) e := by
  have htogether : ¬ RunTogether last [c] := fun h =>
    hc.elim (fun hlast => h.isRun.ne_nil hlast) fun hc => hc h.isRun_concat
  rcases start_cases (s := ⟨tokens, .closed, text.length⟩) rfl c with
    ⟨lexeme, hholds, hstart⟩ | ⟨hrun, ⟨t, ht, hstart⟩ | ⟨ht, ⟨hw, hstart⟩ | ⟨hw, hstart⟩⟩⟩
  · exact .inl ⟨_, hstart, by simp, text, last, [c], rfl, h, hholds, htogether, by simp⟩
  · refine .inl ⟨_, hstart, by simp, text ++ [c], [c], [], by simp, ?_, rfl, fun h => hrun h.isRun, fun _ => hrun⟩
    simpa using h.lexeme ht htogether
  · exact .inl ⟨_, hstart, by simp, text ++ [c], [], [], by simp, h.blank hw, rfl, fun h => h.isRun.ne_nil rfl,
      fun _ h => h.ne_nil rfl⟩
  · refine .inr ⟨_, hstart, fun after => .character h hw ?_ hrun ht⟩
    rcases hc with rfl | hc
    · exact hrun
    · exact hc

theorem Reads.step {text : List Char} (h : s.Reads text) (c : Char) :
    (∃ next, s.step c = .ok next ∧ next.Reads (text ++ [c])) ∨
      ∃ e, s.step c = .error e ∧ ∀ after, Fault (text ++ c :: after) e := by
  cases hextend : s.lexeme.extend? c with
  | some next =>
    obtain ⟨hposition, before, last, l, rfl, hcut, hholds, htogether, hrun⟩ := h
    have hl : l ≠ [] := by
      rintro rfl
      simp [hholds.eq_closed, Lexeme.extend?] at hextend
    rcases hholds.extend? c with ⟨next', hnext, hholds'⟩ | ⟨hnone, _⟩
    · obtain rfl : next = next' := by simpa [hextend] using hnext
      exact .inl ⟨_, step_of_extend hextend, by simp [hposition, Nat.add_assoc], before, last, l ++ [c], by simp, hcut,
        hholds', fun h => htogether (h.of_concat hl), by simp⟩
    · simp [hextend] at hnone
  | none =>
    rcases h.close with ⟨tokens, last, hclose, hcut, hlast⟩ | ⟨e, hclose, hfault⟩
    · rw [step_of_close hextend hclose]
      exact start_of_cut hcut (hlast c hextend)
    · exact .inr ⟨e, step_of_close_error hextend hclose, fun after => hfault _ (by simpa using hextend)⟩

theorem Reads.foldlM {text : List Char} (h : s.Reads text) (rest : List Char) :
    (∃ next, rest.foldlM Scan.step s = .ok next ∧ next.Reads (text ++ rest)) ∨
      ∃ e, rest.foldlM Scan.step s = .error e ∧ Fault (text ++ rest) e := by
  induction rest generalizing s text with
  | nil => exact .inl ⟨s, rfl, by simpa using h⟩
  | cons c rest ih =>
    rw [List.foldlM_cons]
    rcases h.step c with ⟨next, hstep, hnext⟩ | ⟨e, hstep, hfault⟩
    · rw [hstep, List.append_cons]
      exact ih hnext
    · rw [hstep]
      exact .inr ⟨e, rfl, hfault rest⟩

/-! ### Completeness -/

/-- The scan has passed `position` characters with a cut into `tokens`; its lexeme, if it has one, is the last of the
cut. -/
def Ends (s : Scan) (tokens : List Token) (last : List Char) (position : Nat) : Prop :=
  s.close = .ok ⟨tokens.toArray, .closed, position⟩ ∧ (s.lexeme.Holds last ∨ s.lexeme = .closed ∧ ¬ IsRun last)

variable {tokens : List Token} {last : List Char} {position : Nat}

theorem Ends.step_eq (h : s.Ends tokens last position) {c : Char} (hc : EndsBefore last c) :
    s.step c = start ⟨tokens.toArray, .closed, position⟩ c := by
  refine step_of_close ?_ h.1
  -- the lexeme is the last of the cut, which `c` does not continue, or there is none
  rcases h.2 with hholds | ⟨hclosed, _⟩
  · rcases hholds.extend? c with ⟨next, _, hnext⟩ | ⟨hnone, _⟩
    · rcases hc with rfl | hc
      · rw [hholds.eq_closed]
        rfl
      · exact absurd (hnext.isRun (by simp)) hc
    · exact hnone
  · rw [hclosed]
    rfl

/-- A run that does not continue the last lexeme becomes the lexeme of the scan. -/
theorem Ends.foldlM_run (h : s.Ends tokens last position) (hl : IsRun l)
    (hhead : ∀ c ∈ l.head?, EndsBefore last c) :
    ∃ lexeme : Lexeme, lexeme.Holds l ∧
      l.foldlM Scan.step s = .ok ⟨tokens.toArray, lexeme, position + l.length⟩ := by
  induction l using List.reverseRecOn with
  | nil => exact absurd rfl hl.ne_nil
  | append_singleton l c ih =>
    by_cases hnil : l = []
    · subst hnil
      rcases start_cases (s := ⟨tokens.toArray, .closed, position⟩) rfl c with ⟨lexeme, hholds, hstart⟩ | ⟨hrun, _⟩
      · exact ⟨lexeme, hholds, by simp [h.step_eq (hhead c rfl), hstart]⟩
      · exact absurd hl hrun
    · have hhead' : ∀ c ∈ l.head?, EndsBefore last c := by
        intro d hd
        simpa [Option.mem_def.mp hd] using hhead d
      obtain ⟨lexeme, hholds, hread⟩ := ih (hl.of_concat hnil) hhead'
      rcases hholds.extend? c with ⟨next, hextend, hnext⟩ | ⟨_, hrun⟩
      · refine ⟨next, hnext, ?_⟩
        have hstep := step_of_extend (s := ⟨tokens.toArray, lexeme, position + l.length⟩) hextend
        simp [foldlM_append_of_ok hread, hstep, Nat.add_assoc]
      · exact absurd hl (hrun.resolve_left hnil)

theorem Ends.blank (h : s.Ends tokens last position) {c : Char} (hc : isWhiteSpace c) :
    ∃ next, s.step c = .ok next ∧ next.Ends tokens [] (position + 1) := by
  rw [h.step_eq (.inr (not_isRun_concat_of_isWhiteSpace hc))]
  rcases start_cases (s := ⟨tokens.toArray, .closed, position⟩) rfl c with
    ⟨lexeme, hholds, _⟩ | ⟨_, ⟨t, ht, _⟩ | ⟨_, ⟨_, hstart⟩ | ⟨hc', _⟩⟩⟩
  · exact absurd (hholds.isRun (by simp)) (not_isRun_concat_of_isWhiteSpace (l := []) hc)
  · exact absurd ht (not_spells_of_isWhiteSpace hc)
  · exact ⟨_, hstart, rfl, .inl rfl⟩
  · exact absurd hc hc'

theorem Ends.lexeme {t : Token} (h : s.Ends tokens last position) (ht : Spells l t)
    (htogether : ¬ RunTogether last l) :
    ∃ next, l.foldlM Scan.step s = .ok next ∧ next.Ends (tokens ++ [t]) l (position + l.length) := by
  have hhead : ∀ c ∈ l.head?, EndsBefore last c := by
    intro c hc
    obtain ⟨l, rfl⟩ := List.head?_eq_some_iff.mp hc
    by_cases hlast : last = []
    · exact .inl hlast
    · exact .inr fun hrun => htogether (hrun.runTogether hlast ht)
  by_cases hl : IsRun l
  · obtain ⟨lexeme, hholds, hread⟩ := h.foldlM_run hl hhead
    refine ⟨_, hread, ?_, .inl hholds⟩
    rcases close_cases (s := ⟨tokens.toArray, lexeme, position + l.length⟩) hholds hl.ne_nil with
      ⟨t', ht', hclose⟩ | ⟨_, hnone, _⟩
    · rw [hclose, ht.unique ht']
      simp
    · exact absurd ht (hnone t)
  · obtain ⟨c, rfl⟩ := ht.isRun_or_singleton.resolve_left hl
    rcases start_cases (s := ⟨tokens.toArray, .closed, position⟩) rfl c with
      ⟨_, hholds, _⟩ | ⟨_, ⟨t', ht', hstart⟩ | ⟨hnone, _⟩⟩
    · exact absurd (hholds.isRun (by simp)) hl
    · refine ⟨⟨tokens.toArray.push t', .closed, position + 1⟩, ?_, ?_, .inr ⟨rfl, hl⟩⟩
      · simp [h.step_eq (hhead c rfl), hstart]
      · simp [Scan.close, ht.unique ht']
    · exact absurd ht (hnone t)

theorem Ends.step_eq_error (h : s.Ends tokens last position) {c : Char} (hc : ¬ isWhiteSpace c)
    (hlast : ¬ IsRun (last ++ [c])) (hrun : ¬ IsRun [c]) (hnone : ∀ t, ¬ Spells [c] t) :
    s.step c = .error (.invalidCharacter c position) := by
  rw [h.step_eq (.inr hlast)]
  rcases start_cases (s := ⟨tokens.toArray, .closed, position⟩) rfl c with
    ⟨_, hholds, _⟩ | ⟨_, ⟨t, ht, _⟩ | ⟨_, ⟨hc', _⟩ | ⟨_, hstart⟩⟩⟩
  · exact absurd (hholds.isRun (by simp)) hrun
  · exact absurd ht (hnone t)
  · exact absurd hc' hc
  · exact hstart

theorem close_eq_error (h : s.lexeme.Holds l) (hl : IsRunOf Char.isLower l) (hnone : ∀ t, ¬ Spells l t) :
    s.close = .error (.invalidFunctionName (String.ofList l) s.position) := by
  rcases close_cases h hl.1 with ⟨t, ht, _⟩ | ⟨_, _, hclose⟩
  · exact absurd ht (hnone t)
  · exact hclose

end Scan

/-- The scan passes through every cut. -/
theorem Cut.foldlM {text last : List Char} {tokens : List Token} (h : Cut text tokens last) :
    ∃ s : Scan, text.foldlM Scan.step {} = .ok s ∧ s.Ends tokens last text.length := by
  induction h with
  | nil => exact ⟨{}, rfl, rfl, .inl rfl⟩
  | blank _ hc ih =>
    obtain ⟨s, hread, hends⟩ := ih
    obtain ⟨next, hstep, hnext⟩ := hends.blank hc
    exact ⟨next, by simp [Scan.foldlM_append_of_ok hread, hstep], by simpa using hnext⟩
  | lexeme _ ht htogether ih =>
    obtain ⟨s, hread, hends⟩ := ih
    obtain ⟨next, hlexeme, hnext⟩ := hends.lexeme ht htogether
    exact ⟨next, by rw [Scan.foldlM_append_of_ok hread, hlexeme], by simpa using hnext⟩

/-! ### Whole texts -/

section

variable {source : String} {s : Scan} {e : LexicalError}

theorem tokenize_of_close {closed : Scan} (h : source.toList.foldlM Scan.step {} = .ok s)
    (hclose : s.close = .ok closed) : tokenize source = .ok closed.tokens.toList := by
  simp [tokenize, h, hclose, bind, Except.bind, pure, Except.pure]

theorem tokenize_of_close_error (h : source.toList.foldlM Scan.step {} = .ok s) (hclose : s.close = .error e) :
    tokenize source = .error e := by
  simp [tokenize, h, hclose, bind, Except.bind]

theorem tokenize_of_error (h : source.toList.foldlM Scan.step {} = .error e) : tokenize source = .error e := by
  simp [tokenize, h, bind, Except.bind]

end

theorem Cut.tokenize {source : String} {last : List Char} {tokens : List Token} (h : Cut source.toList tokens last) :
    tokenize source = .ok tokens := by
  obtain ⟨s, hread, hclose, _⟩ := h.foldlM
  exact tokenize_of_close hread hclose

theorem Fault.tokenize {source : String} {e : LexicalError} (h : Fault source.toList e) :
    tokenize source = .error e := by
  generalize hsource : source.toList = text at h
  cases h with
  | @character before after tokens last c hcut hw hlast hc hnone =>
    obtain ⟨s, hread, hends⟩ := hcut.foldlM
    refine tokenize_of_error ?_
    rw [hsource, Scan.foldlM_append_of_ok hread, List.foldlM_cons, hends.step_eq_error hw hlast hc hnone]
    rfl
  | @functionName before run after tokens last hcut hbefore hafter hrun hsci hf =>
    obtain ⟨s, hread, hends⟩ := hcut.foldlM
    obtain ⟨lexeme, hholds, hlexeme⟩ := hends.foldlM_run (.inr (.inr hrun)) fun c hc =>
      hcut.not_isRun_concat hbefore (hrun.2 c (List.mem_of_mem_head? hc))
    have hnone : ∀ t, ¬ Spells run t := by
      intro t ht
      rw [spells_letters_iff hrun, wordToken?_eq_some_iff] at ht
      rcases ht with ⟨h, _⟩ | ⟨f, h, _⟩
      · exact hsci (by simpa using congrArg String.toList h)
      · exact hf f (by simpa using congrArg String.toList h)
    have hclose := Scan.close_eq_error (s := ⟨tokens.toArray, lexeme, before.length + run.length⟩) hholds hrun hnone
    have hrest := Scan.foldlM_append_of_ok (b := after) ((Scan.foldlM_append_of_ok hread).trans hlexeme)
    cases after with
    | nil => exact tokenize_of_close_error (by rw [hsource, hrest]; rfl) hclose
    | cons c after =>
      have hextend : lexeme.extend? c = none := by
        rcases hholds.extend? c with ⟨next, _, hnext⟩ | ⟨hextend, _⟩
        · have hlonger := (isRun_concat_letters_iff hrun).mp (hnext.isRun (by simp))
          exact absurd (isRunOf_concat.mp hlonger).2 (hafter c rfl)
        · exact hextend
      refine tokenize_of_error ?_
      rw [hsource, hrest, List.foldlM_cons, Scan.step_of_close_error hextend hclose]
      rfl

/-- What the scan answers is a cut or a fault of the text. -/
theorem exists_cut_or_fault (source : String) :
    (∃ tokens last, tokenize source = .ok tokens ∧ Cut source.toList tokens last) ∨
      ∃ e, tokenize source = .error e ∧ Fault source.toList e := by
  rcases Scan.reads_nil.foldlM source.toList with ⟨s, hread, hs⟩ | ⟨e, hread, hfault⟩
  · rcases hs.close with ⟨tokens, last, hclose, hcut, _⟩ | ⟨e, hclose, hfault⟩
    · exact .inl ⟨_, last, tokenize_of_close hread hclose, hcut⟩
    · exact .inr ⟨e, tokenize_of_close_error hread hclose, by simpa using hfault [] (by simp)⟩
  · exact .inr ⟨e, tokenize_of_error hread, hfault⟩

/-- The tokens of a text are those of its cut, and its error is that of its fault. -/
theorem tokenize_eq_iff (source : String) :
    (∀ tokens, tokenize source = .ok tokens ↔ ∃ last, Cut source.toList tokens last) ∧
      ∀ e, tokenize source = .error e ↔ Fault source.toList e := by
  refine ⟨fun tokens => ⟨fun h => ?_, fun ⟨last, hcut⟩ => hcut.tokenize⟩, fun e => ⟨fun h => ?_, Fault.tokenize⟩⟩
  · rcases exists_cut_or_fault source with ⟨tokens', last, h', hcut⟩ | ⟨e, h', _⟩
    · obtain rfl : tokens = tokens' := Except.ok.inj (h.symm.trans h')
      exact ⟨last, hcut⟩
    · exact absurd (h.symm.trans h') (by simp)
  · rcases exists_cut_or_fault source with ⟨tokens, _, h', _⟩ | ⟨e', h', hfault⟩
    · exact absurd (h.symm.trans h') (by simp)
    · obtain rfl : e = e' := Except.error.inj (h.symm.trans h')
      exact hfault

end Calculator
