import Calculator.Proofs.Calculation.Admissible
import Calculator.Proofs.CommandLine.Scripts

/-!
# What listings add

An expression passes three stages: it has tokens, a tree and a value.  What a stage makes of it is a text, if the
expression gets so far (`Stage.text?`), and options only choose which of these texts are printed
(`printed_runExpression`).  The first stage that fails is reported, whatever is printed (`reported_runExpression`).  So
runs of a script with different listings differ in the texts of tokens and trees alone (`respond_listings`).
-/

namespace Calculator

/-! ### Stages of an expression -/

/-- The stages of an expression. -/
inductive Stage
  | tokens | tree | value
  deriving DecidableEq, Repr

namespace Stage

/-- All stages, in the order in which an expression passes them. -/
def all : List Stage :=
  [tokens, tree, value]

/-- What the stage makes of an expression, as a text. -/
def text? (source : String) : Stage → Option String
  | tokens => (tokenize source).toOption.map listTokens
  | tree => (tokenize source).toOption.bind fun tokens => (parse tokens).toOption.map Expr.listingText
  | value => (calculate source).toOption.map plainText

end Stage

/-- Whether the text of a stage is to be printed; that of a value always is. -/
def ListingOptions.shows (options : ListingOptions) : Stage → Bool
  | .tokens => options.tokens
  | .tree => options.tree
  | .value => true

/-- What is to be printed for an expression, with the stages it comes from. -/
def shownTexts (options : ListingOptions) (source : String) : List (Stage × String) :=
  Stage.all.filterMap fun stage => if options.shows stage then (stage.text? source).map (stage, ·) else none

/-- What is to be reported for an expression: the error, and the place if it has no tokens. -/
def errorReport (source : String) : List String :=
  match calculate source with
  | .ok _ => []
  | .error (.lexical error) => [error.message, "  " ++ source, caret error.position]
  | .error error => [error.message]

namespace Transcript

/-- The texts on the standard output. -/
def printed (t : Transcript) : List String :=
  t.filterMap fun | .printed text => some text | .reported _ => none

/-- The texts on the error output. -/
def reported (t : Transcript) : List String :=
  t.filterMap fun | .printed _ => none | .reported text => some text

theorem hasFailed_eq (t : Transcript) : t.hasFailed = !t.reported.isEmpty := by
  induction t with
  | nil => rfl
  | cons entry t ih =>
    cases entry with
    | printed text => exact ih
    | reported text => rfl

end Transcript

/-! ### One expression -/

section

variable (options : ListingOptions) (source : String)

theorem map_snd_shownTexts :
    (shownTexts options source).map Prod.snd =
      Stage.all.filterMap fun stage => if options.shows stage then stage.text? source else none := by
  rw [shownTexts, List.map_filterMap]
  congr 1
  funext stage
  split
  · simp [Function.comp_def]
  · rfl

/-- An expression prints the texts of the stages that it passes. -/
theorem printed_runExpression :
    (runExpression options source).printed = (shownTexts options source).map Prod.snd := by
  rw [map_snd_shownTexts, Transcript.printed]
  rcases stages_of_calculate source with
    ⟨error, htokens, hvalue⟩ | ⟨tokens, error, htokens, htree, hvalue⟩ | ⟨tokens, e, x, htokens, htree, hx, hvalue⟩
  · have htexts : ∀ stage : Stage, stage.text? source = none := by
      intro stage
      cases stage <;> simp [Stage.text?, Except.toOption, htokens, hvalue]
    simp [runExpression, htokens, htexts]
  · have htexts : ∀ stage : Stage, stage.text? source = if stage = .tokens then some (listTokens tokens) else none := by
      intro stage
      cases stage <;> simp [Stage.text?, Except.toOption, htokens, htree, hvalue]
    cases hshows : options.tokens <;>
      simp [runExpression, htokens, htree, htexts, Stage.all, ListingOptions.shows, hshows]
  · have htexts : Stage.tokens.text? source = some (listTokens tokens) ∧
        Stage.tree.text? source = some e.listingText ∧ Stage.value.text? source = some (plainText x) := by
      simp [Stage.text?, Except.toOption, htokens, htree, hvalue]
    cases hshows : options.tokens <;> cases hshows' : options.tree <;>
      simp [runExpression, htokens, htree, hx, htexts, Stage.all, ListingOptions.shows, hshows, hshows']

/-- An expression reports its first failure. -/
theorem reported_runExpression : (runExpression options source).reported = errorReport source := by
  rw [Transcript.reported]
  rcases stages_of_calculate source with
    ⟨error, htokens, hvalue⟩ | ⟨tokens, error, htokens, htree, hvalue⟩ | ⟨tokens, e, x, htokens, htree, hx, hvalue⟩
  · simp [runExpression, errorReport, htokens, hvalue]
  · cases hshows : options.tokens <;>
      simp [runExpression, errorReport, CalculationError.message, htokens, htree, hvalue, hshows]
  · cases hshows : options.tokens <;> cases hshows' : options.tree <;>
      simp [runExpression, errorReport, htokens, htree, hx, hvalue, hshows, hshows']

theorem isEmpty_errorReport : (errorReport source).isEmpty = (calculate source).isOk := by
  unfold errorReport
  split <;> rename_i hvalue <;> rw [hvalue] <;> rfl

/-- Without the texts of tokens and trees, what is left is printed without listings. -/
theorem filter_shownTexts :
    (shownTexts options source).filter (fun shown => shown.1 = .value) = shownTexts {} source := by
  obtain ⟨showsTokens, showsTree⟩ := options
  rw [shownTexts, shownTexts, List.filter_filterMap]
  congr 1
  funext stage
  cases stage with
  | tokens => cases showsTokens <;> cases Stage.tokens.text? source <;> simp [ListingOptions.shows]
  | tree => cases showsTree <;> cases Stage.tree.text? source <;> simp [ListingOptions.shows]
  | value => cases Stage.value.text? source <;> simp [ListingOptions.shows]

end

/-! ### Scripts -/

section

variable (options : ListingOptions) (script : String)

theorem printed_runScript :
    (runScript options script).printed = ((scriptExpressions script).flatMap (shownTexts options)).map Prod.snd := by
  rw [runScript, Transcript.printed, List.filterMap_flatMap, List.map_flatMap]
  exact List.flatMap_congr fun line _ => printed_runExpression options line

theorem reported_runScript : (runScript options script).reported = (scriptExpressions script).flatMap errorReport := by
  rw [runScript, Transcript.reported, List.filterMap_flatMap]
  exact List.flatMap_congr fun line _ => reported_runExpression options line

theorem output_runScript : (runScript options script).output =
    Transcript.concatLines (((scriptExpressions script).flatMap (shownTexts options)).map Prod.snd) :=
  congrArg Transcript.concatLines (printed_runScript options script)

theorem diagnostics_runScript :
    (runScript options script).diagnostics = Transcript.concatLines ((scriptExpressions script).flatMap errorReport) :=
  congrArg Transcript.concatLines (reported_runScript options script)

theorem filter_flatMap_shownTexts (lines : List String) :
    (lines.flatMap (shownTexts options)).filter (fun shown => shown.1 = .value) = lines.flatMap (shownTexts {}) := by
  rw [List.filter_flatMap]
  exact List.flatMap_congr fun line _ => filter_shownTexts options line

theorem hasFailed_runScript :
    (runScript options script).hasFailed = !(scriptExpressions script).all fun line => (calculate line).isOk := by
  rw [Transcript.hasFailed_eq, reported_runScript, Bool.not_inj_iff, Bool.eq_iff_iff, List.isEmpty_iff,
    List.flatMap_eq_nil_iff, List.all_eq_true]
  refine forall₂_congr fun line _ => ?_
  rw [← isEmpty_errorReport, List.isEmpty_iff]

end

/-! ### Responses -/

namespace Request

/-- The text that a request is about. -/
def script (r : Request) (readText : String → Except ReadFailure String) : Except ReadFailure String :=
  if r.fromFile then readText r.contents else .ok r.contents

variable {r : Request} {readText : String → Except ReadFailure String}

theorem respond_of_script {script : String} (h : r.script readText = .ok script) :
    r.respond readText = r.respondTo script := by
  unfold Request.script at h
  unfold respond
  split
  · rename_i hfile
    rw [if_pos hfile] at h
    simp only [h]
  · rename_i hfile
    rw [if_neg hfile] at h
    rw [Except.ok.inj h]

/-- Where there is no text, listings make no difference. -/
theorem respond_of_script_error {failure : ReadFailure} (h : r.script readText = .error failure)
    (options : ListingOptions) : r.respond readText = { r with listing := options }.respond readText := by
  unfold Request.script at h
  unfold respond
  split
  · rename_i hfile
    rw [if_pos hfile] at h
    simp only [h]
  · rename_i hfile
    rw [if_neg hfile] at h
    cases h

end Request

theorem respond_of_request {readText : String → Except ReadFailure String} {arguments : List String} {r : Request}
    (h : Request.ofArguments arguments = .ok r) : respond readText arguments = r.respond readText := by
  rw [respond, h]

/-- Two lists of arguments that differ in the listings they ask for get the same diagnostics and exit status.  The
output is, for one expression of the script after the other, the listing of its tokens if it has tokens, that of its
tree if it has a tree, each if it is asked for, and its value if it has one.  Without the two listings, this is the
output of a run that asks for none.  Whether an expression has a value, and the error if it has none, is as it is
calculated. -/
theorem respond_listings (readText : String → Except ReadFailure String) {arguments arguments' : List String}
    {r : Request} (h : Request.ofArguments arguments = .ok r)
    (h' : Request.ofArguments arguments' = .ok { r with listing := {} }) :
    let listed := respond readText arguments
    let unlisted := respond readText arguments'
    (listed.transcript.diagnostics = unlisted.transcript.diagnostics ∧ listed.exitStatus = unlisted.exitStatus) ∧
      ∀ script, r.script readText = .ok script →
        let lines := scriptExpressions script
        let shown := lines.flatMap (shownTexts r.listing)
        listed.transcript.output = Transcript.concatLines (shown.map Prod.snd) ∧
          unlisted.transcript.output =
            Transcript.concatLines ((shown.filter fun text => text.1 = .value).map Prod.snd) ∧
          listed.transcript.diagnostics = Transcript.concatLines (lines.flatMap errorReport) ∧
          listed.exitStatus = if lines.all fun line => (calculate line).isOk then 0 else 1 := by
  intro listed unlisted
  have hlisted : listed = r.respond readText := respond_of_request h
  have hunlisted : unlisted = { r with listing := {} }.respond readText := respond_of_request h'
  have hrun {script : String} (hscript : r.script readText = .ok script) :
      listed = r.respondTo script ∧ unlisted = { r with listing := {} }.respondTo script :=
    ⟨hlisted.trans (Request.respond_of_script hscript), hunlisted.trans (Request.respond_of_script hscript)⟩
  refine ⟨?_, fun script hscript => ?_⟩
  · cases hscript : r.script readText with
    | error failure =>
      rw [hlisted, hunlisted, Request.respond_of_script_error hscript {}]
      exact ⟨rfl, rfl⟩
    | ok script =>
      obtain ⟨hlisted, hunlisted⟩ := hrun hscript
      rw [hlisted, hunlisted]
      simp only [Request.respondTo, diagnostics_runScript, hasFailed_runScript, true_and]
  · obtain ⟨hlisted, hunlisted⟩ := hrun hscript
    intro lines shown
    rw [hlisted, hunlisted]
    refine ⟨output_runScript r.listing script, ?_, diagnostics_runScript r.listing script, ?_⟩
    · rw [filter_flatMap_shownTexts]
      exact output_runScript {} script
    · simp only [Request.respondTo, hasFailed_runScript]
      cases lines.all fun line => (calculate line).isOk <;> rfl

/-- In a file, a sum that lacks an operand and a number before a strange character come before a quotient.  The first
has a listing of its tokens, and only the last a tree and a value. -/
theorem respond_listings_failing :
    let script := "1+\n 2 $\r\n# three\n1/8"
    let directory : Directory := ⟨[("script.calc", script.toUTF8)]⟩
    let arguments := ["--tree", "-f", "script.calc", "--tokens"]
    let response := respond directory.readText arguments
    Request.ofArguments arguments = .ok ⟨true, ⟨true, true⟩, "script.calc"⟩ ∧
      directory.readText "script.calc" = .ok script ∧
      response.transcript.output =
        "Number(1) Operator(+)\nNumber(1) Operator(/) Number(8)\n" ++
          (Expr.binary .div (.value 1) (.value 8)).listingText ++ "\n0.125\n" ∧
      (respond directory.readText ["script.calc", "--file"]).transcript.output = "0.125\n" ∧
      response.transcript.diagnostics =
        "Invalid expression: expected an expression on the right side of + at position 1\n" ++
          "Invalid character: $ at position 2\n  2 $\n    ^\n" ∧
      response.exitStatus = 1 := by
  intro script directory arguments response
  have harguments : Request.ofArguments arguments = .ok ⟨true, ⟨true, true⟩, "script.calc"⟩ := by decide +kernel
  have hplain : Request.ofArguments ["script.calc", "--file"] = .ok ⟨true, {}, "script.calc"⟩ := by decide +kernel
  have hread : directory.readText "script.calc" = .ok script :=
    (Directory.readText_eq rfl (by decide) (by decide)).trans (decodeText_toUTF8 script)
  obtain ⟨-, hscript⟩ := respond_listings directory.readText harguments hplain
  obtain ⟨houtput, hvalues, hdiagnostics, hstatus⟩ := hscript script hread
  refine ⟨harguments, hread, houtput.trans ?_, hvalues.trans ?_, hdiagnostics.trans ?_, hstatus.trans ?_⟩
  · decide +kernel
  · decide +kernel
  · decide +kernel
  · decide +kernel

end Calculator
