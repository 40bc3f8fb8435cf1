import Calculator.Expr.Listing
import Calculator.Proofs.Expr.Leaves
import Calculator.Proofs.Number.DetailedText

/-!
# Listings of trees are faithful

A block can be taken apart.  Its fields are set in, so the opening line and the closing line stand out, and a field goes
as far as the first line that is not set in further and ends with a comma: the opening line of a field ends with a
bracket (`IsField`).  Hence blocks with the same lines have the same fields (`block_inj`), and by induction trees with
the same lines are the same (`Expr.listing_inj`).

The text of a listing determines its lines, as no line begins with a blank or holds a line feed (`render_inj`,
`intercalate_inj`), and so it determines the tree (`Expr.listingText_inj`).
-/

namespace Calculator

/-! ### Fields -/

/-- The line is not set in and ends with a comma. -/
def ListingLine.EndsField (line : ListingLine) : Prop :=
  line.level = 0 ∧ line.text.toList.getLast? = some ','

/-- Lines of which the last one is not set in, and none before it can be taken for the end of a field. -/
def IsField (lines : List ListingLine) : Prop :=
  ∃ init last, lines = init ++ [last] ∧ last.level = 0 ∧ ∀ line ∈ init, ¬line.EndsField

section

variable {f g r s : List ListingLine}

theorem closeField_concat (init : List ListingLine) (last : ListingLine) :
    closeField (init ++ [last]) = init ++ [{ last with text := last.text ++ "," }] := by
  induction init with
  | nil => rfl
  | cons line init ih =>
    rw [List.cons_append, closeField, ih]
    · rfl
    · simp

theorem endsField_closed {last : ListingLine} (h : last.level = 0) :
    ({ last with text := last.text ++ "," } : ListingLine).EndsField := by
  refine ⟨h, ?_⟩
  simp

/-- A closed field ends where its comma is. -/
theorem closeField_append_inj (hf : IsField f) (hg : IsField g) (h : closeField f ++ r = closeField g ++ s) :
    f = g ∧ r = s := by
  obtain ⟨init, last, rfl, hlast, hinit⟩ := hf
  obtain ⟨init', last', rfl, hlast', hinit'⟩ := hg
  simp only [closeField_concat, List.append_assoc, List.singleton_append] at h
  obtain ⟨rfl, hclosed, rfl⟩ := eq_of_append_cons h (fun hmem => hinit' _ hmem (endsField_closed hlast))
    (fun hmem => hinit _ hmem (endsField_closed hlast'))
  obtain ⟨level, text⟩ := last
  obtain ⟨level', text'⟩ := last'
  simp_all

end

/-- Fields one after the other can be told apart. -/
theorem flatMap_closeField_inj {fields fields' : List (List ListingLine)} (hfields : ∀ f ∈ fields, IsField f)
    (hfields' : ∀ f ∈ fields', IsField f) (h : fields.flatMap closeField = fields'.flatMap closeField) :
    fields = fields' := by
  have hne {f : List ListingLine} (hf : IsField f) : closeField f ≠ [] := by
    obtain ⟨init, last, rfl, -⟩ := hf
    simp [closeField_concat]
  induction fields generalizing fields' with
  | nil =>
    cases fields' with
    | nil => rfl
    | cons g gs =>
      have hg := hne (hfields' g List.mem_cons_self)
      simp_all
  | cons f fs ih =>
    cases fields' with
    | nil =>
      have hf := hne (hfields f List.mem_cons_self)
      simp_all
    | cons g gs =>
      obtain ⟨hf, hfs⟩ := List.forall_mem_cons.1 hfields
      obtain ⟨hg, hgs⟩ := List.forall_mem_cons.1 hfields'
      obtain ⟨rfl, hrest⟩ := closeField_append_inj hf hg h
      rw [ih hfs hgs hrest]

theorem isField_singleton (text : String) : IsField [⟨0, text⟩] :=
  ⟨[], _, rfl, rfl, by simp⟩

/-- A block is a field, whatever its fields are, unless its opening line ends with a comma. -/
theorem isField_block {opening : String} (h : opening.toList.getLast? ≠ some ',') (fields : List (List ListingLine))
    (closing : String) : IsField (block opening fields closing) := by
  refine ⟨⟨0, opening⟩ :: setIn (fields.flatMap closeField), ⟨0, closing⟩, rfl, rfl, ?_⟩
  rintro line hline ⟨hlevel, hcomma⟩
  rcases List.mem_cons.1 hline with rfl | hline
  · exact h hcomma
  · obtain ⟨inner, -, rfl⟩ := List.mem_map.1 hline
    exact absurd hlevel (Nat.succ_ne_zero _)

theorem IsField.named {lines : List ListingLine} (h : IsField lines) (name : String) :
    IsField (namedField name lines) := by
  obtain ⟨init, last, rfl, hlast, hinit⟩ := h
  cases init with
  | nil => exact ⟨[], _, rfl, hlast, by simp⟩
  | cons line init =>
    obtain ⟨hline, hinit⟩ := List.forall_mem_cons.1 hinit
    refine ⟨_ :: init, last, rfl, hlast, List.forall_mem_cons.2 ⟨?_, hinit⟩⟩
    rintro ⟨hlevel, hcomma⟩
    have hname : (name ++ ": ").toList.getLast? = some ' ' := by simp
    rw [String.toList_append, List.getLast?_append, hname] at hcomma
    refine hline ⟨hlevel, ?_⟩
    cases htext : line.text.toList.getLast? with
    | none => simp [htext] at hcomma
    | some c => simpa [htext] using hcomma

/-! ### Blocks -/

theorem setIn_inj {lines lines' : List ListingLine} (h : setIn lines = setIn lines') : lines = lines' := by
  refine List.map_injective_iff.2 ?_ h
  rintro ⟨level, text⟩ ⟨level', text'⟩ h
  simp_all

theorem namedField_inj {name : String} {lines lines' : List ListingLine}
    (h : namedField name lines = namedField name lines') : lines = lines' := by
  cases lines with
  | nil => cases lines' <;> simp_all [namedField, putBefore]
  | cons line lines =>
    cases lines' with
    | nil => simp_all [namedField, putBefore]
    | cons line' lines' =>
      obtain ⟨level, text⟩ := line
      obtain ⟨level', text'⟩ := line'
      simpa [namedField, putBefore, String.append_right_inj] using h

/-- Blocks with the same lines have the same parts. -/
theorem block_inj {opening opening' closing closing' : String} {fields fields' : List (List ListingLine)}
    (hfields : ∀ f ∈ fields, IsField f) (hfields' : ∀ f ∈ fields', IsField f)
    (h : block opening fields closing = block opening' fields' closing') :
    opening = opening' ∧ fields = fields' := by
  obtain ⟨hopening, hrest⟩ := List.cons.inj h
  obtain ⟨hinner, -⟩ := List.append_inj' hrest rfl
  refine ⟨by simpa using hopening, ?_⟩
  exact flatMap_closeField_inj hfields hfields' (setIn_inj hinner)

/-! ### Operators and trees -/

theorem Function.label_inj {f g : Function} : f.label = g.label ↔ f = g := by
  cases f <;> cases g <;> decide

namespace BinaryOp

theorem label_inj {op op' : BinaryOp} : op.label = op'.label ↔ op = op' := by
  cases op <;> cases op' <;> decide

theorem isField_listing (op : BinaryOp) : IsField op.listing :=
  isField_singleton _

theorem listing_inj {op op' : BinaryOp} (h : op.listing = op'.listing) : op = op' := by
  have hlabel : op.label = op'.label := by simpa [listing] using h
  exact label_inj.1 hlabel

end BinaryOp

namespace UnaryOp

theorem isField_listing (op : UnaryOp) : IsField op.listing := by
  cases op with
  | identity => exact isField_singleton _
  | negate => exact isField_singleton _
  | function f => exact isField_block (by decide) _ _

theorem listing_inj {op op' : UnaryOp} (h : op.listing = op'.listing) : op = op' := by
  cases op with
  | identity =>
    cases op' with
    | identity => rfl
    | negate => exact absurd h (by decide)
    | function g => simp [listing, block, closeField, setIn] at h
  | negate =>
    cases op' with
    | identity => exact absurd h (by decide)
    | negate => rfl
    | function g => simp [listing, block, closeField, setIn] at h
  | function f =>
    cases op' with
    | identity => simp [listing, block, closeField, setIn] at h
    | negate => simp [listing, block, closeField, setIn] at h
    | function g =>
      obtain ⟨-, hfields⟩ := block_inj (by simp [isField_singleton]) (by simp [isField_singleton]) h
      have hlabel : f.label = g.label := by simpa using hfields
      rw [Function.label_inj.1 hlabel]

end UnaryOp

namespace Expr

theorem isField_listing (e : Expr) : IsField e.listing := by
  cases e with
  | value x => exact isField_block (by decide) _ _
  | unary op e => exact isField_block (by decide) _ _
  | binary op l r => exact isField_block (by decide) _ _

/-- Trees with the same lines are the same. -/
theorem listing_inj {e e' : Expr} (he : ∀ x ∈ e.leaves, x.isFinite) (he' : ∀ x ∈ e'.leaves, x.isFinite)
    (h : e.listing = e'.listing) : e = e' := by
  induction e generalizing e' with
  | value x =>
    cases e' with
    | value y =>
      obtain ⟨-, hfields⟩ := block_inj (by simp [isField_singleton]) (by simp [isField_singleton]) h
      have htext : detailedText x = detailedText y := by simpa using hfields
      rw [detailedText_inj (he x (by simp [leaves])) (he' y (by simp [leaves])) htext]
    | unary op e' => exact absurd (List.cons.inj h).1 (by decide)
    | binary op l r => exact absurd (List.cons.inj h).1 (by decide)
  | unary op e ih =>
    cases e' with
    | value y => exact absurd (List.cons.inj h).1 (by decide)
    | unary op' e' =>
      have hisField (op : UnaryOp) (e : Expr) :
          ∀ f ∈ [namedField "op" op.listing, namedField "operand" e.listing], IsField f := by
        simp [op.isField_listing.named, e.isField_listing.named]
      obtain ⟨-, hfields⟩ := block_inj (hisField op e) (hisField op' e') h
      obtain ⟨hop, hoperand⟩ : namedField "op" op.listing = namedField "op" op'.listing ∧
          namedField "operand" e.listing = namedField "operand" e'.listing := by simpa using hfields
      have hleaves' : ∀ x ∈ e'.leaves, x.isFinite := he'
      rw [UnaryOp.listing_inj (namedField_inj hop), ih he hleaves' (namedField_inj hoperand)]
    | binary op' l r => exact absurd (List.cons.inj h).1 (by decide)
  | binary op l r ihl ihr =>
    cases e' with
    | value y => exact absurd (List.cons.inj h).1 (by decide)
    | unary op' e' => exact absurd (List.cons.inj h).1 (by decide)
    | binary op' l' r' =>
      have hisField (op : BinaryOp) (l r : Expr) : ∀ f ∈ [namedField "op" op.listing, namedField "left" l.listing,
          namedField "right" r.listing], IsField f := by
        simp [op.isField_listing.named, l.isField_listing.named, r.isField_listing.named]
      obtain ⟨-, hfields⟩ := block_inj (hisField op l r) (hisField op' l' r') h
      obtain ⟨hop, hleft, hright⟩ : namedField "op" op.listing = namedField "op" op'.listing ∧
          namedField "left" l.listing = namedField "left" l'.listing ∧
          namedField "right" r.listing = namedField "right" r'.listing := by simpa using hfields
      obtain ⟨hl, hr⟩ := List.forall_mem_append.1 he
      obtain ⟨hl', hr'⟩ := List.forall_mem_append.1 he'
      rw [BinaryOp.listing_inj (namedField_inj hop), ihl hl hl' (namedField_inj hleft),
        ihr hr hr' (namedField_inj hright)]

end Expr

/-! ### Texts of lines -/

/-- The text is not empty, does not begin with a blank and goes over one line. -/
def IsLineText (text : String) : Prop :=
  text.toList ≠ [] ∧ text.toList.head? ≠ some ' ' ∧ '\n' ∉ text.toList

instance (text : String) : Decidable (IsLineText text) :=
  inferInstanceAs (Decidable (_ ∧ _))

/-- All lines say such texts. -/
def HaveLineTexts (lines : List ListingLine) : Prop :=
  ∀ line ∈ lines, IsLineText line.text

section

variable {lines : List ListingLine} {text : String}

theorem IsLineText.append (h : IsLineText text) {after : String} (hafter : '\n' ∉ after.toList) :
    IsLineText (text ++ after) := by
  obtain ⟨hne, hblank, hline⟩ := h
  obtain ⟨c, l, hl⟩ := List.exists_cons_of_ne_nil hne
  rw [hl] at hblank hline
  simp_all [IsLineText]

theorem HaveLineTexts.closeField (h : HaveLineTexts lines) : HaveLineTexts (closeField lines) := by
  rcases List.eq_nil_or_concat lines with rfl | ⟨init, last, rfl⟩
  · exact h
  · rw [List.concat_eq_append] at h ⊢
    obtain ⟨hinit, hlast⟩ := List.forall_mem_append.1 h
    rw [closeField_concat]
    refine List.forall_mem_append.2 ⟨hinit, List.forall_mem_singleton.2 ?_⟩
    exact (hlast last (List.mem_singleton_self last)).append (by decide)

theorem HaveLineTexts.named (h : HaveLineTexts lines) (name : String) (hname : IsLineText (name ++ ": ")) :
    HaveLineTexts (namedField name lines) := by
  cases lines with
  | nil => exact h
  | cons line lines =>
    obtain ⟨hline, hlines⟩ := List.forall_mem_cons.1 h
    exact List.forall_mem_cons.2 ⟨hname.append hline.2.2, hlines⟩

theorem haveLineTexts_singleton (h : IsLineText text) : HaveLineTexts [⟨0, text⟩] := by
  simpa [HaveLineTexts] using h

theorem haveLineTexts_block {opening closing : String} {fields : List (List ListingLine)}
    (hopening : IsLineText opening) (hclosing : IsLineText closing) (hfields : ∀ f ∈ fields, HaveLineTexts f) :
    HaveLineTexts (block opening fields closing) := by
  refine List.forall_mem_cons.2 ⟨hopening, List.forall_mem_append.2 ⟨?_, haveLineTexts_singleton hclosing⟩⟩
  intro line hline
  obtain ⟨inner, hinner, rfl⟩ := List.mem_map.1 hline
  obtain ⟨f, hf, hmem⟩ := List.mem_flatMap.1 hinner
  exact (hfields f hf).closeField inner hmem

end

theorem isLineText_detailedText {x : Float} (h : x.isFinite) : IsLineText (detailedText x) := by
  have hchars {c : Char} (hc : c ∈ (detailedText x).toList) : c ≠ ' ' ∧ c ≠ '\n' := by
    rcases mem_detailedText h hc with hc | rfl | rfl | rfl
    · constructor <;> rintro rfl <;> exact absurd hc (by decide)
    · decide
    · decide
    · decide
  exact ⟨detailedText_ne_nil h, fun hblank => (hchars (List.mem_of_mem_head? hblank)).1 rfl,
    fun hline => (hchars hline).2 rfl⟩

theorem Function.isLineText_label (f : Function) : IsLineText f.label := by
  cases f <;> decide +kernel

theorem BinaryOp.haveLineTexts_listing (op : BinaryOp) : HaveLineTexts op.listing := by
  cases op <;> exact haveLineTexts_singleton (by decide +kernel)

theorem UnaryOp.haveLineTexts_listing (op : UnaryOp) : HaveLineTexts op.listing := by
  cases op with
  | identity => exact haveLineTexts_singleton (by decide +kernel)
  | negate => exact haveLineTexts_singleton (by decide +kernel)
  | function f =>
    refine haveLineTexts_block (by decide +kernel) (by decide +kernel) ?_
    simpa using haveLineTexts_singleton f.isLineText_label

theorem Expr.haveLineTexts_listing {e : Expr} (h : ∀ x ∈ e.leaves, x.isFinite) : HaveLineTexts e.listing := by
  induction e with
  | value x =>
    refine haveLineTexts_block (by decide +kernel) (by decide +kernel) ?_
    simpa using haveLineTexts_singleton (isLineText_detailedText (h x (by simp [leaves])))
  | unary op e ih =>
    have hop := op.haveLineTexts_listing.named "op" (by decide +kernel)
    have hoperand := (ih h).named "operand" (by decide +kernel)
    refine haveLineTexts_block (by decide +kernel) (by decide +kernel) ?_
    simp [hop, hoperand]
  | binary op l r ihl ihr =>
    obtain ⟨hl, hr⟩ := List.forall_mem_append.1 h
    have hop := op.haveLineTexts_listing.named "op" (by decide +kernel)
    have hleft := (ihl hl).named "left" (by decide +kernel)
    have hright := (ihr hr).named "right" (by decide +kernel)
    refine haveLineTexts_block (by decide +kernel) (by decide +kernel) ?_
    simp [hop, hleft, hright]

/-! ### Texts of listings -/

/-- The margin of a line can be told from what it says. -/
theorem render_inj {a b : ListingLine} (ha : IsLineText a.text) (hb : IsLineText b.text) (h : a.render = b.render) :
    a = b := by
  obtain ⟨level, text⟩ := a
  obtain ⟨level', text'⟩ := b
  obtain ⟨hne, hblank, -⟩ := ha
  obtain ⟨hne', hblank', -⟩ := hb
  obtain ⟨c, l, hl⟩ := List.exists_cons_of_ne_nil hne
  obtain ⟨c', l', hl'⟩ := List.exists_cons_of_ne_nil hne'
  have hlines := congrArg String.toList h
  rw [hl, List.head?_cons] at hblank
  rw [hl', List.head?_cons] at hblank'
  simp only [ListingLine.render, String.toList_append, String.toList_ofList, hl, hl'] at hlines
  have hmark {d : Char} {n : Nat} (hd : some d ≠ some ' ') : d ∉ List.replicate n ' ' :=
    fun hmem => hd (congrArg some (List.eq_of_mem_replicate hmem))
  obtain ⟨hmargin, rfl, rfl⟩ := eq_of_append_cons hlines (hmark hblank) (hmark hblank')
  obtain rfl : text = text' := String.toList_inj.1 (hl.trans hl'.symm)
  have hlength : 4 * level = 4 * level' := by simpa using congrArg List.length hmargin
  obtain rfl : level = level' := by omega
  rfl

theorem map_render_inj {lines lines' : List ListingLine} (h : HaveLineTexts lines) (h' : HaveLineTexts lines')
    (hmap : lines.map ListingLine.render = lines'.map ListingLine.render) : lines = lines' := by
  induction lines generalizing lines' with
  | nil => exact (List.map_eq_nil_iff.1 hmap.symm).symm
  | cons line lines ih =>
    obtain ⟨line', rest, rfl, hline, hrest⟩ := List.map_eq_cons_iff.1 hmap.symm
    obtain ⟨ha, has⟩ := List.forall_mem_cons.1 h
    obtain ⟨hb, hbs⟩ := List.forall_mem_cons.1 h'
    rw [render_inj ha hb hline.symm, ih has hbs hrest.symm]

theorem newline_notMem_render {line : ListingLine} (h : IsLineText line.text) : '\n' ∉ line.render.toList := by
  rw [ListingLine.render, String.toList_append, String.toList_ofList, List.mem_append, List.mem_replicate]
  rintro (⟨-, hblank⟩ | hmem)
  · exact absurd hblank (by decide)
  · exact h.2.2 hmem

/-- Parts in which the separator does not occur can be recovered from the whole. -/
theorem intercalate_inj {c : Char} {separator : String} (hseparator : separator.toList = [c])
    {parts parts' : List String} (hparts : ∀ s ∈ parts, c ∉ s.toList) (hparts' : ∀ s ∈ parts', c ∉ s.toList)
    (hne : parts ≠ []) (hne' : parts' ≠ []) (h : separator.intercalate parts = separator.intercalate parts') :
    parts = parts' := by
  have hsplit {parts : List String} (hparts : ∀ s ∈ parts, c ∉ s.toList) (hne : parts ≠ []) :
      (separator.intercalate parts).toList.splitOn c = parts.map String.toList := by
    rw [String.toList_intercalate, hseparator]
    exact List.splitOn_intercalate c (by simpa using hparts) (by simpa using hne)
  have htexts : parts.map String.toList = parts'.map String.toList := by
    rw [← hsplit hparts hne, h, hsplit hparts' hne']
  exact List.map_injective_iff.2 (fun _ _ => String.toList_inj.1) htexts

namespace Expr

/-- Trees that are listed by the same text are the same. -/
theorem listingText_inj {e e' : Expr} (he : ∀ x ∈ e.leaves, x.isFinite) (he' : ∀ x ∈ e'.leaves, x.isFinite)
    (h : e.listingText = e'.listingText) : e = e' := by
  have hline {e : Expr} (he : ∀ x ∈ e.leaves, x.isFinite) :
      ∀ s ∈ e.listing.map ListingLine.render, '\n' ∉ s.toList := by
    intro s hs
    obtain ⟨line, hmem, rfl⟩ := List.mem_map.1 hs
    exact newline_notMem_render (haveLineTexts_listing he line hmem)
  have hne (e : Expr) : e.listing.map ListingLine.render ≠ [] := by
    cases e <;> simp [listing, block]
  have hrenders := intercalate_inj rfl (hline he) (hline he') (hne e) (hne e') h
  exact listing_inj he he' (map_render_inj (haveLineTexts_listing he) (haveLineTexts_listing he') hrenders)

end Expr

end Calculator
