import Calculator.Proofs.Syntax.Descent

/-!
# Descents as courses

A stack of frames stands for the calls that a descent has not come back from.  Where a category can follow the frames
(`Setting.Admits`), the course of a reading is the descent for that category, and then the course behind its tree, with
the same frames open (`course_eq_thenCourse`).  From a cursor there are no frames, so that a whole course is a descent
(`course_eq_descent`).
-/

namespace Calculator

/-! ### A descent and what follows it -/

/-- The course that begins with a descent from `position` and goes on with `next` behind its tree. -/
def Descent.thenCourse (d : Descent) (position : Nat) (next : Expr → Nat → Course) : Course :=
  match d.result with
  | .ok e => (next e d.taken).after d.events
  | .error error => ⟨d.events, .error error, position + d.taken⟩

namespace Descent

variable {d : Descent} {p : Nat} {f g : Expr → Nat → Course}

theorem thenCourse_congr (h : ∀ e, d.result = .ok e → f e d.taken = g e d.taken) :
    d.thenCourse p f = d.thenCourse p g := by
  unfold thenCourse
  cases hd : d.result with
  | ok e => simp only [h e hd]
  | error error => rfl

theorem thenCourse_andThen (next : Expr → Nat → Descent) :
    (d.andThen next).thenCourse p f =
      d.thenCourse p fun e k => (next e k).thenCourse (p + k) fun e' k' => f e' (k + k') := by
  cases hd : d.result with
  | ok e =>
    rw [andThen_of_ok hd]
    simp only [thenCourse, hd]
    cases (next e d.taken).result <;> simp [Course.after, Nat.add_assoc]
  | error error => simp only [andThen_of_error hd, thenCourse, hd]

theorem thenCourse_after (event : Event) : (d.after event).thenCourse p f = (d.thenCourse p f).after [event] := by
  unfold thenCourse
  cases hd : d.result <;> simp [hd, after, Course.after]

theorem thenCourse_behind : d.behind.thenCourse p f = d.thenCourse (p + 1) fun e k => f e (k + 1) := by
  unfold thenCourse
  cases hd : d.result <;> simp [hd, behind, Nat.add_comm, Nat.add_left_comm]

theorem thenCourse_done (e : Expr) : (done e).thenCourse p f = f e 0 :=
  rfl

theorem thenCourse_fail (error : SyntaxError) : (fail error).thenCourse p f = ⟨[], .error error, p⟩ :=
  rfl

end Descent

/-! ### What can follow the frames -/

/-- Whether something of a category can follow the frames: a chain, if its operators bind more strongly than the
innermost frame, and signed operands of the right kind. -/
def Setting.Admits (s : Setting) (frames : List Frame) : Category → Prop
  | .chain level =>
    (∀ frame ∈ frames.head?, frame.strength < level.strength) ∧ (frames = [] → s.level.strength ≤ level.strength)
  | .signed tight => inExponent frames = tight ∧ (frames = [] → s.level ≠ .power)
  | .primary => True

/-- Whether things of the category begin with a primary. -/
def Category.isUnsigned : Category → Bool
  | chain .power => true
  | primary => true
  | _ => false

section

variable {s : Setting} {frames : List Frame}

theorem Setting.Admits.first {level : Level} (h : s.Admits frames (.chain level)) : s.Admits frames level.first := by
  obtain ⟨hf, hn⟩ := h
  cases level with
  | sum => exact ⟨fun frame hm => Nat.lt_succ_of_lt (hf frame hm), fun h => Nat.le_succ_of_le (hn h)⟩
  | product =>
    refine ⟨?_, fun h hp => absurd (hn h) (by rw [hp]; decide)⟩
    cases frames with
    | nil => rfl
    | cons frame frames => exact decide_eq_false (Nat.not_le.2 (Nat.lt_trans (hf frame rfl) (by decide)))
  | power => trivial

theorem Setting.Admits.unsigned {tight : Bool} (h : s.Admits frames (.signed tight)) :
    s.Admits frames (unsigned tight) := by
  obtain ⟨hf, -⟩ := h
  cases tight with
  | true => trivial
  | false =>
    refine ⟨fun frame hm => ?_, fun _ => by cases s.level <;> decide⟩
    obtain ⟨outer, rfl⟩ := List.head?_eq_some_iff.1 hm
    simpa [inExponent] using hf

theorem admits_next (l : Expr) (op : BinaryOp) (p : Nat) : s.Admits (.binary l op p :: frames) op.level.next := by
  cases op <;> simp [Setting.Admits, BinaryOp.level, Level.next, Frame.strength, BinaryOp.strength, Level.strength,
    inExponent]

theorem admits_signed (op : UnaryOp) (p : Nat) (tight : Bool) :
    s.Admits (.unary op p tight :: frames) (.signed tight) := by
  cases tight <;> simp [Setting.Admits, inExponent, Frame.strength, Level.strength]

theorem admits_group : s.Admits (.group :: frames) (.chain .sum) := by
  simp [Setting.Admits, Frame.strength, Level.strength]

theorem strength_signed (op : UnaryOp) (p : Nat) (tight : Bool) :
    (Category.signed tight).strength = (Frame.unary op p tight).strength + 1 := by
  cases tight <;> rfl

theorem prefixOp?_eq (h : frames = [] → s.level ≠ .power) {t : Token} {op : UnaryOp} (hop : t.unaryOp? = some op) :
    s.prefixOp? frames t = some op := by
  have hsigned : ¬(s.level = .power ∧ frames.isEmpty) := fun ⟨hlevel, hnil⟩ => h (List.isEmpty_iff.1 hnil) hlevel
  rw [Setting.prefixOp?, if_neg hsigned, hop]

theorem isUnsigned_of_first {level : Level} (h : level.first.isUnsigned) : (Category.chain level).isUnsigned := by
  cases level <;> revert h <;> decide

theorem not_isUnsigned_next (level : Level) : ¬level.next.isUnsigned := by
  cases level <;> decide

@[simp]
theorem nestingIn_group : s.nestingIn (.group :: frames) = s.nestingIn frames + 1 := by
  rw [Setting.nestingIn, List.countP_cons_of_pos rfl, ← Nat.add_assoc, Setting.nestingIn]

@[simp]
theorem nestingIn_unary (op : UnaryOp) (p : Nat) (tight : Bool) :
    s.nestingIn (.unary op p tight :: frames) = s.nestingIn frames + 1 := by
  rw [Setting.nestingIn, List.countP_cons_of_pos rfl, ← Nat.add_assoc, Setting.nestingIn]

@[simp]
theorem nestingIn_binary (l : Expr) (op : BinaryOp) (p : Nat) :
    s.nestingIn (.binary l op p :: frames) = s.nestingIn frames := by
  simp [Setting.nestingIn, Frame.encloses]

end

/-! ### The simulation -/

/-- Where a descent stands in a reading with open frames. -/
def Goal.reading : Goal → List Frame → Reading
  | .read _, frames => .wanting frames
  | .extend _ left, frames => .complete frames left

/-- Whether a descent can begin at `ts` behind the frames: a primary with no prefix operator before it, and the rest of
a chain where no tighter operator follows. -/
def Goal.Fits (s : Setting) (frames : List Frame) (ts : List Token) : Goal → Prop
  | .read category =>
    s.Admits frames category ∧ (category.isUnsigned → ∀ t ∈ ts.head?, s.prefixOp? frames t = none)
  | .extend level _ => s.Admits frames (.chain level) ∧ BindsBelow (level.strength + 1) ts

/-- A course is the descent for what comes next, and then the course behind its tree. -/
theorem course_eq_thenCourse {s : Setting} {ended : SyntaxError} {goal : Goal} {n p : Nat} {ts : List Token}
    {frames : List Frame} (hn : s.nestingIn frames = n) (hfit : goal.Fits s frames ts) :
    (goal.reading frames).course s ended p ts =
      (descend ended goal n p ts).thenCourse p fun e k =>
        (Reading.complete frames e).course s ended (p + k) (ts.drop k) := by
  fun_induction descend ended goal n p ts generalizing frames with
  | case1 level n p ts ihFirst ihExtend =>
    obtain ⟨hadmits, hbare⟩ := hfit
    rw [Descent.thenCourse_andThen]
    refine (ihFirst hn ⟨hadmits.first, fun h => hbare (isUnsigned_of_first h)⟩).trans ?_
    refine Descent.thenCourse_congr fun left hleft => ?_
    have hbelow := descend_endsAt hleft
    rw [Goal.EndsAt, Level.strength_first] at hbelow
    refine (ihExtend left _ hn ⟨hadmits, bindsBelow_of_next hbelow⟩).trans ?_
    simp only [List.drop_drop, Nat.add_assoc]
  | case2 left n p op ts ihNext ihExtend =>
    -- the operator waits as a frame while its right operand is read, and is completed behind it
    obtain ⟨hadmits, -⟩ := hfit
    rw [Descent.thenCourse_behind, Descent.thenCourse_andThen]
    refine (Reading.course_operator hadmits.1 hadmits.2 left p ts).trans ?_
    refine (ihNext (by simpa using hn) ⟨admits_next left op p, fun h => absurd h (not_isUnsigned_next _)⟩).trans ?_
    refine Descent.thenCourse_congr fun right hright => ?_
    have hbelow := bindsBelow_of_next (descend_endsAt hright)
    rw [Reading.course_binary hbelow, Descent.thenCourse_after]
    refine congrArg _ ((ihExtend right _ hn ⟨hadmits, hbelow⟩).trans ?_)
    refine Descent.thenCourse_congr fun e _ => ?_
    rw [List.drop_drop, List.drop_succ_cons]
    congr 1
    omega
  | case3 | case4 => rfl
  | case5 tight n p ih => exact ih hn ⟨hfit.1.unsigned, by simp⟩
  | case6 tight n p t ts op hop ih =>
    obtain ⟨⟨hexp, hlevel⟩, -⟩ := hfit
    have hprefix : s.prefixOp? frames t = some op := prefixOp?_eq hlevel hop
    rw [Descent.thenCourse_after, Descent.thenCourse_behind, Descent.thenCourse_andThen]
    refine (Reading.course_prefixOp hprefix p ts).trans ?_
    rw [hexp, hn]
    refine congrArg _ ((ih (by simpa using hn) ⟨admits_signed op p tight, by simp [Category.isUnsigned]⟩).trans ?_)
    refine Descent.thenCourse_congr fun inner hinner => ?_
    have hbelow := descend_endsAt hinner
    rw [Goal.EndsAt, strength_signed op p] at hbelow
    rw [Reading.course_unary hbelow, Descent.thenCourse_after, Descent.thenCourse_done, List.drop_succ_cons,
      Nat.add_right_comm, Nat.add_assoc p, Nat.add_zero]
  | case7 tight n p t ts hop ih =>
    refine ih hn ⟨hfit.1.unsigned, fun _ t' ht' => ?_⟩
    obtain rfl : t = t' := by simpa using ht'
    simp [Setting.prefixOp?, hop]
  | case8 n p text ts x hx =>
    refine (Reading.course_number frames p text ts).trans ?_
    rw [hx]
    rfl
  | case9 n p text ts error herror =>
    refine (Reading.course_number frames p text ts).trans ?_
    rw [herror]
    rfl
  | case10 n p ts ih =>
    rw [Descent.thenCourse_after, Descent.thenCourse_behind, Descent.thenCourse_andThen]
    refine (Reading.course_leftParen frames p ts).trans ?_
    rw [hn]
    refine congrArg _ ((ih (by simpa using hn) ⟨admits_group, by simp [Category.isUnsigned]⟩).trans ?_)
    refine Descent.thenCourse_congr fun inner hinner => ?_
    -- what ends the sum is no operator, so the group is closed there or not at all
    have hbelow := descend_endsAt hinner
    split
    · rename_i tail htail
      rw [htail, Reading.course_rightParen, Descent.thenCourse_behind, Descent.thenCourse_done]
      rw [Nat.zero_add, List.drop_succ_cons, ← List.drop_drop, htail, List.drop_one, List.tail_cons]
      congr 1
      omega
    · rename_i htail
      rw [Reading.course_unclosed hbelow]
      · rw [Descent.thenCourse_fail]
      · intro hhead
        obtain ⟨tail, hcons⟩ := List.head?_eq_some_iff.1 hhead
        exact htail tail hcons
  | case11 n p t ts hnumber hparen =>
    exact Reading.course_unexpected (fun text h => hnumber text h) hparen (hfit.2 rfl t rfl) p ts
  | case12 => rfl

/-- From a cursor, with nothing open, the course is the descent. -/
theorem course_eq_descent {level : Level} {ended : SyntaxError} (n p : Nat) (ts : List Token) :
    let d := descend ended (.read (.chain level)) n p ts
    (Reading.wanting []).course ⟨level, n⟩ ended p ts = ⟨d.events, d.result, p + d.taken⟩ := by
  have hfit : (Goal.read (.chain level)).Fits ⟨level, n⟩ [] ts := by
    refine ⟨⟨by simp, fun _ => Nat.le_refl _⟩, fun h t _ => ?_⟩
    have hlevel : level = .power := by
      cases level <;> first | rfl | simp [Category.isUnsigned] at h
    simp [Setting.prefixOp?, hlevel]
  have hn : (⟨level, n⟩ : Setting).nestingIn [] = n := rfl
  refine (course_eq_thenCourse hn hfit).trans ?_
  cases hd : (descend ended (.read (.chain level)) n p ts).result with
  | error error => simp only [Descent.thenCourse, hd]
  | ok e =>
    have hbelow : BindsBelow (⟨level, n⟩ : Setting).level.strength _ := descend_endsAt hd
    simp only [Descent.thenCourse, hd, Reading.course_end hbelow, Course.after, List.append_nil]

end Calculator
