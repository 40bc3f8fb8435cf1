import Calculator.Proofs.Token.Tokenize

/-!
# Texts side by side

Two texts are *apart* if the last character of the first and the first character of the second cannot stand side by side
in one lexeme.  Cuts of such texts make a cut of both together (`Cut.append`), and every cut of both together comes from
them (`Cut.of_append`), so that the tokens of both together are those of the first and then those of the second
(`isCutInto_append_iff`).
-/

namespace Calculator

/-- Whether the characters can stand side by side in one lexeme. -/
def Adjoin (c d : Char) : Prop :=
  (c.isDigit ∨ c = '.') ∧ (d.isDigit ∨ d = '.') ∨ c = '-' ∧ d = '-' ∨ c.isLower ∧ d.isLower

/-- No lexeme can begin in the first text and end in the second. -/
def Apart (a b : List Char) : Prop :=
  ∀ c ∈ a.getLast?, ∀ d ∈ b.head?, ¬ Adjoin c d

theorem Apart.of_append_right {a b b' : List Char} (h : Apart a (b ++ b')) : Apart a b := by
  intro c hc d hd
  exact h c hc d (by simp [List.head?_append, Option.mem_def.mp hd])

theorem apart_append_left {before a b : List Char} (ha : a ≠ []) : Apart (before ++ a) b ↔ Apart a b := by
  obtain ⟨a, c, rfl⟩ := (List.eq_nil_or_concat a).resolve_left ha
  simp [Apart]

/-! ### Lexemes do not reach across -/

theorem IsNumeral.forall_mem {l : List Char} (h : IsNumeral l) : ∀ c ∈ l, c.isDigit ∨ c = '.' := by
  rcases h with h | ⟨whole, fraction, hwhole, hfraction, rfl⟩
  · exact fun c hc => .inl (h.2 c hc)
  · intro c hc
    rcases List.mem_append.mp hc with hc | hc
    · exact .inl (hwhole.2 c hc)
    · rcases List.mem_cons.mp hc with rfl | hc
      · exact .inr rfl
      · exact .inl (hfraction c hc)

/-- The characters of a run can all stand side by side. -/
theorem IsRun.adjoin {l : List Char} (h : IsRun l) {c d : Char} (hc : c ∈ l) (hd : d ∈ l) : Adjoin c d := by
  rcases h with h | h | h
  · exact .inl ⟨h.forall_mem c hc, h.forall_mem d hd⟩
  · exact .inr (.inl ⟨by simpa using h.2 c hc, by simpa using h.2 d hd⟩)
  · exact .inr (.inr ⟨h.2 c hc, h.2 d hd⟩)

/-- Texts are not apart if the characters on both sides of the border can stand side by side. -/
theorem not_apart_of_adjoin {before k l after : List Char} (hk : k ≠ []) (hl : l ≠ [])
    (h : ∀ c ∈ k, ∀ d ∈ l, Adjoin c d) : ¬ Apart (before ++ k) (l ++ after) := by
  intro hapart
  obtain ⟨k, c, rfl⟩ := (List.eq_nil_or_concat k).resolve_left hk
  obtain ⟨d, l, rfl⟩ := List.exists_cons_of_ne_nil hl
  exact hapart c (by simp) d rfl (h c (by simp) d (by simp))

theorem Apart.not_spells {a b : List Char} (h : Apart a b) (ha : a ≠ []) (hb : b ≠ []) {t : Token} :
    ¬ Spells (a ++ b) t := by
  intro ht
  rcases ht.isRun_or_singleton with hrun | ⟨x, hx⟩
  · have hadjoin : ∀ c ∈ a, ∀ d ∈ b, Adjoin c d := fun c hc d hd =>
      hrun.adjoin (List.mem_append_left b hc) (List.mem_append_right a hd)
    have hnot : ¬ Apart ([] ++ a) (b ++ []) := not_apart_of_adjoin ha hb hadjoin
    exact hnot (by simpa using h)
  · rcases List.append_eq_singleton_iff.mp hx with ⟨h, -⟩ | ⟨-, h⟩
    · exact ha h
    · exact hb h

theorem RunTogether.not_apart {k l before after : List Char} (h : RunTogether k l) :
    ¬ Apart (before ++ k) (l ++ after) := by
  rcases h with ⟨hk, hl⟩ | ⟨hk, hl⟩ | ⟨hk, hl⟩
  · exact not_apart_of_adjoin hk.ne_nil hl.ne_nil fun c hc d hd => .inl ⟨hk.forall_mem c hc, hl.forall_mem d hd⟩
  · refine not_apart_of_adjoin hk.1 hl.1 fun c hc d hd => .inr (.inl ⟨?_, ?_⟩)
    · simpa using hk.2 c hc
    · simpa using hl.2 d hd
  · exact not_apart_of_adjoin hk.1 hl.1 fun c hc d hd => .inr (.inr ⟨hk.2 c hc, hl.2 d hd⟩)

theorem Adjoin.not_isWhiteSpace {c d : Char} (h : Adjoin c d) : ¬ isWhiteSpace c ∧ ¬ isWhiteSpace d := by
  have hrun : ∀ {c : Char}, c.isDigit ∨ c = '-' ∨ c.isLower → ¬ isWhiteSpace c := fun hc hw =>
    not_isRun_concat_of_isWhiteSpace (l := []) hw (isRun_singleton.mpr hc)
  have hpoint : ∀ {c : Char}, c.isDigit ∨ c = '.' → ¬ isWhiteSpace c := fun hc hw => by
    rcases hc with hc | rfl
    · exact hrun (.inl hc) hw
    · simp [isWhiteSpace] at hw
  rcases h with ⟨hc, hd⟩ | ⟨hc, hd⟩ | ⟨hc, hd⟩
  · exact ⟨hpoint hc, hpoint hd⟩
  · exact ⟨hrun (.inr (.inl hc)), hrun (.inr (.inl hd))⟩
  · exact ⟨hrun (.inr (.inr hc)), hrun (.inr (.inr hd))⟩

/-! ### Cuts side by side -/

variable {a b last : List Char} {tokens : List Token}

theorem Cut.append {ta tb : List Token} {la lb : List Char} (ha : Cut a ta la) (hb : Cut b tb lb) (h : Apart a b) :
    Cut (a ++ b) (ta ++ tb) (if b = [] then la else lb) := by
  induction hb with
  | nil => simpa using ha
  | blank _ hw ih =>
    rw [← List.append_assoc]
    simpa using (ih h.of_append_right).blank hw
  | @lexeme b tb lb l t hb ht htogether ih =>
    rw [← List.append_assoc, ← List.append_assoc]
    simp only [List.append_eq_nil_iff, ht.ne_nil, and_false, if_false]
    refine (ih h.of_append_right).lexeme ht ?_
    split
    · -- the lexeme is the first of the second text, and follows the last of the first one
      rename_i hnil
      subst hnil
      obtain ⟨before, rfl⟩ := ha.exists_append_last
      intro hrun
      have hnot : ¬ Apart (before ++ la) (l ++ []) := hrun.not_apart
      exact hnot (by simpa using h)
    · exact htogether

theorem Cut.of_append (h : Cut (a ++ b) tokens last) (hab : Apart a b) :
    ∃ ta tb la lb, Cut a ta la ∧ Cut b tb lb ∧ tokens = ta ++ tb ∧ last = if b = [] then la else lb := by
  generalize htext : a ++ b = text at h
  induction h generalizing b with
  | nil =>
    obtain ⟨rfl, rfl⟩ := List.append_eq_nil_iff.mp htext
    exact ⟨[], [], [], [], .nil, .nil, rfl, rfl⟩
  | @blank text tokens last c h hw ih =>
    rcases List.eq_nil_or_concat b with rfl | ⟨b, d, rfl⟩
    · obtain rfl : a = text ++ [c] := by simpa using htext
      exact ⟨tokens, [], [], [], h.blank hw, .nil, by simp, by simp⟩
    · rw [List.concat_eq_append, ← List.append_assoc] at htext
      obtain ⟨rfl, hd⟩ := List.append_inj' htext rfl
      obtain rfl : d = c := by simpa using hd
      rw [List.concat_eq_append] at hab ⊢
      obtain ⟨ta, tb, la, lb, ha, hb, rfl, -⟩ := ih hab.of_append_right rfl
      exact ⟨ta, tb, la, [], ha, hb.blank hw, rfl, by simp⟩
  | @lexeme text tokens last l t h ht htogether ih =>
    rcases List.append_eq_append_iff.mp htext with ⟨m, rfl, rfl⟩ | ⟨m, rfl, rfl⟩
    · -- the lexeme lies in the second text
      obtain ⟨ta, tb, la, lb, ha, hb, rfl, rfl⟩ := ih hab.of_append_right rfl
      refine ⟨ta, tb ++ [t], la, l, ha, hb.lexeme ht ?_, by simp, by simp [ht.ne_nil]⟩
      split at htogether
      · rename_i hnil
        subst hnil
        obtain ⟨before, hbefore⟩ := hb.exists_append_last
        obtain ⟨-, rfl⟩ := List.append_eq_nil_iff.mp hbefore.symm
        exact fun hrun => hrun.isRun.ne_nil rfl
      · exact htogether
    · by_cases hb : b = []
      · subst hb
        exact ⟨tokens ++ [t], [], m ++ [], [], by simpa using h.lexeme ht htogether, .nil, by simp, by simp⟩
      · -- the lexeme ends in the second text, so it begins there
        obtain rfl : m = [] := by
          by_contra hm
          exact ((apart_append_left hm).mp hab).not_spells hm hb ht
        refine ⟨tokens, [t], last, b, by simpa using h, ?_, rfl, by simp [hb]⟩
        simpa using Cut.nil.lexeme ht fun hrun => hrun.isRun.ne_nil rfl

/-! ### Tokens of a text -/

/-- The text can be cut into white space and lexemes that spell the tokens. -/
def IsCutInto (text : List Char) (tokens : List Token) : Prop :=
  ∃ last, Cut text tokens last

theorem tokenize_eq_ok {source : String} : tokenize source = .ok tokens ↔ IsCutInto source.toList tokens := by
  refine ⟨fun h => ?_, fun ⟨_, hcut⟩ => hcut.tokenize⟩
  rcases exists_cut_or_fault source with ⟨tokens', last, h', hcut⟩ | ⟨e, h', _⟩
  · obtain rfl : tokens = tokens' := Except.ok.inj (h.symm.trans h')
    exact ⟨last, hcut⟩
  · exact absurd (h.symm.trans h') (by simp)

/-- The tokens of texts that are apart are those of the first and then those of the second. -/
theorem isCutInto_append_iff (h : Apart a b) :
    IsCutInto (a ++ b) tokens ↔ ∃ ta tb, IsCutInto a ta ∧ IsCutInto b tb ∧ tokens = ta ++ tb := by
  constructor
  · rintro ⟨last, hcut⟩
    obtain ⟨ta, tb, la, lb, ha, hb, htokens, -⟩ := hcut.of_append h
    exact ⟨ta, tb, ⟨la, ha⟩, ⟨lb, hb⟩, htokens⟩
  · rintro ⟨ta, tb, ⟨la, ha⟩, ⟨lb, hb⟩, rfl⟩
    exact ⟨_, ha.append hb h⟩

theorem IsCutInto.unique {tokens' : List Token} (h : IsCutInto a tokens) (h' : IsCutInto a tokens') :
    tokens = tokens' := by
  have hsource : (String.ofList a).toList = a := String.toList_ofList
  rw [← hsource, ← tokenize_eq_ok] at h h'
  exact Except.ok.inj (h.symm.trans h')

theorem isCutInto_whiteSpace (h : ∀ c ∈ a, isWhiteSpace c) : IsCutInto a [] := by
  induction a using List.reverseRecOn with
  | nil => exact ⟨[], .nil⟩
  | append_singleton a c ih =>
    obtain ⟨last, hcut⟩ := ih fun c hc => h c (by simp [hc])
    exact ⟨[], hcut.blank (h c (by simp))⟩

theorem isCutInto_lexeme {t : Token} (h : Spells a t) : IsCutInto a [t] :=
  ⟨a, by simpa using Cut.nil.lexeme h fun hrun => hrun.isRun.ne_nil rfl⟩

/-- The tokens of a text with a lexeme in it that is apart from what is around. -/
theorem isCutInto_append_lexeme_iff {l : List Char} {t : Token} (ht : Spells l t) (ha : Apart a (l ++ b))
    (hb : Apart l b) :
    IsCutInto (a ++ (l ++ b)) tokens ↔ ∃ ta tb, IsCutInto a ta ∧ IsCutInto b tb ∧ tokens = ta ++ t :: tb := by
  rw [isCutInto_append_iff ha]
  constructor
  · rintro ⟨ta, rest, hta, hrest, rfl⟩
    obtain ⟨ts, tb, hts, htb, rfl⟩ := (isCutInto_append_iff hb).mp hrest
    obtain rfl := hts.unique (isCutInto_lexeme ht)
    exact ⟨ta, tb, hta, htb, rfl⟩
  · rintro ⟨ta, tb, hta, htb, rfl⟩
    exact ⟨ta, _, hta, (isCutInto_append_iff hb).mpr ⟨_, tb, isCutInto_lexeme ht, htb, rfl⟩, rfl⟩

end Calculator
