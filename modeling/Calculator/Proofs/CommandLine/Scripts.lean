import Calculator.CommandLine.Response

/-!
# Scripts run one after the other

A script that is given as an argument, or as a file of its bytes, gets the response of a run of its expressions
(`respond_argument`, `respond_file`).  Scripts with line feeds between them get the responses of each of them, one after
the other, and together fail exactly if one of them fails (`runScript_intercalate`, `respond_scripts`).
-/

namespace Calculator

/-- The arguments that ask for a run of `contents`, or of the file of that name, with listings. -/
def scriptArguments (fromFile : Bool) (options : ListingOptions) (contents : String) : List String :=
  (if fromFile then ["--file"] else []) ++ (if options.tokens then ["--tokens"] else []) ++
    (if options.tree then ["--tree"] else []) ++ ["--", contents]

theorem ofArguments_scriptArguments (fromFile : Bool) (options : ListingOptions) (contents : String) :
    Request.ofArguments (scriptArguments fromFile options contents) = .ok ⟨fromFile, options, contents⟩ := by
  obtain ⟨tokens, tree⟩ := options
  cases fromFile <;> cases tokens <;> cases tree <;> rfl

/-! ### Responses to scripts -/

section

variable (readText : String → Except ReadFailure String) (options : ListingOptions)

theorem respond_argument (script : String) :
    respond readText (scriptArguments false options script) =
      ⟨runScript options script, if (runScript options script).hasFailed then 1 else 0⟩ := by
  rw [respond, ofArguments_scriptArguments]
  rfl

/-- A file gets the response that its text would get. -/
theorem respond_file {path script : String} (h : readText path = decodeText script.toUTF8) :
    respond readText (scriptArguments true options path) =
      respond readText (scriptArguments false options script) := by
  rw [respond_argument, respond, ofArguments_scriptArguments]
  simp only [Request.respond, h, decodeText_toUTF8]
  rfl

end

/-! ### Scripts joined -/

variable (options : ListingOptions)

theorem runScript_intercalate (scripts : List String) :
    runScript options ("\n".intercalate scripts) = scripts.flatMap (runScript options) := by
  induction scripts with
  | nil => rfl
  | cons script scripts ih =>
    cases scripts with
    | nil => simp
    | cons next scripts =>
      rw [String.intercalate_cons_cons, runScript_append, ih]
      rfl

theorem hasFailed_flatMap (scripts : List String) :
    Transcript.hasFailed (scripts.flatMap (runScript options)) ↔
      ∃ script ∈ scripts, (runScript options script).hasFailed := by
  induction scripts with
  | nil => simp [Transcript.hasFailed]
  | cons script scripts ih => simp [List.flatMap_cons, Transcript.hasFailed_append, ih]

/-- Two scripts with a line feed between them print and report what the first does and then what the second does, and
fail if one of them fails.  So do any number of scripts, lines among them, and none keeps another from running.  A
script gets the same response from a file. -/
theorem respond_scripts (readText : String → Except ReadFailure String) (options : ListingOptions) :
    let run (script : String) := respond readText (scriptArguments false options script)
    (∀ a b : String,
      let both := run (a ++ "\n" ++ b)
      both.transcript.output = (run a).transcript.output ++ (run b).transcript.output ∧
        both.transcript.diagnostics = (run a).transcript.diagnostics ++ (run b).transcript.diagnostics ∧
        both.exitStatus = if (run a).exitStatus = 1 ∨ (run b).exitStatus = 1 then 1 else 0) ∧
      (∀ scripts : List String,
        let all := run ("\n".intercalate scripts)
        all.transcript = scripts.flatMap (fun script => (run script).transcript) ∧
          all.exitStatus = if ∃ script ∈ scripts, (run script).exitStatus = 1 then 1 else 0) ∧
      ∀ path script : String, readText path = decodeText script.toUTF8 →
        respond readText (scriptArguments true options path) = run script := by
  intro run
  have hrun (script : String) : run script = _ := respond_argument readText options script
  refine ⟨fun a b => ?_, fun scripts => ?_, fun path script h => ?_⟩
  · simp only [hrun, runScript_append, Transcript.output_append, Transcript.diagnostics_append,
      Transcript.hasFailed_append, Bool.or_eq_true, true_and]
    simp
  · simp only [hrun, runScript_intercalate, hasFailed_flatMap, true_and]
    simp
  · exact respond_file readText options h

/-- A line that fails and ends in a carriage return comes before a comment and a sum, which has its value from a file,
too. -/
theorem respond_scripts_failing :
    let script := "2 $\r" ++ "\n" ++ "# two\n1+1"
    let directory : Directory := ⟨[("script.calc", script.toUTF8)]⟩
    let response := respond directory.readText (scriptArguments true {} "script.calc")
    directory.readText "script.calc" = decodeText script.toUTF8 ∧ response.transcript.output = "2\n" ∧
      response.transcript.diagnostics = "Invalid character: $ at position 2\n  2 $\n    ^\n" ∧
      response.exitStatus = 1 := by
  intro script directory response
  have hread : directory.readText "script.calc" = decodeText script.toUTF8 :=
    Directory.readText_eq rfl (by decide) (by decide)
  obtain ⟨hjoined, -, hfile⟩ := respond_scripts directory.readText {}
  obtain ⟨houtput, hdiagnostics, hstatus⟩ := hjoined "2 $\r" "# two\n1+1"
  have hresponse := hfile "script.calc" script hread
  refine ⟨hread, ?_, ?_, ?_⟩
  · refine ((congrArg (·.transcript.output) hresponse).trans houtput).trans ?_
    decide +kernel
  · refine ((congrArg (·.transcript.diagnostics) hresponse).trans hdiagnostics).trans ?_
    decide +kernel
  · refine ((congrArg (·.exitStatus) hresponse).trans hstatus).trans ?_
    decide +kernel

end Calculator
