import Calculator.Calculation
import Calculator.Expr.Listing

/-!
# Scripts

A script has an expression on each line; blank lines and lines that begin with `#` say nothing.  A line ends at a line
feed, and a carriage return before it is white space.  Each expression is run by itself: what is asked for is printed
as far as the expression gets, then its value, or the error is reported.

What a script prints and reports is the concatenation of what its lines do: two scripts with a line feed between run
as one after the other (`runScript_append`), so output, diagnostics and failure of both together are those of each.
-/

namespace Calculator

/-- A piece of output, which ends its line. -/
inductive Entry
  /-- Part of what was asked for. -/
  | printed (text : String)
  /-- Part of an error report. -/
  | reported (text : String)
  deriving DecidableEq, Repr

/-- What a run prints and reports, in order. -/
abbrev Transcript := List Entry

namespace Transcript

/-- The texts, each closed by a line feed. -/
def concatLines (texts : List String) : String :=
  String.join (texts.map (· ++ "\n"))

/-- The text on the standard output. -/
def output (t : Transcript) : String :=
  concatLines (t.filterMap fun | .printed text => some text | .reported _ => none)

/-- The text on the error output. -/
def diagnostics (t : Transcript) : String :=
  concatLines (t.filterMap fun | .printed _ => none | .reported text => some text)

/-- Whether an error was reported. -/
def hasFailed (t : Transcript) : Bool :=
  t.any fun | .printed _ => false | .reported _ => true

theorem output_append (s t : Transcript) : output (s ++ t) = s.output ++ t.output := by
  simp [output, concatLines]

theorem diagnostics_append (s t : Transcript) : diagnostics (s ++ t) = s.diagnostics ++ t.diagnostics := by
  simp [diagnostics, concatLines]

theorem hasFailed_append (s t : Transcript) : hasFailed (s ++ t) = (s.hasFailed || t.hasFailed) := by
  simp [hasFailed]

end Transcript

/-- What is to be listed before a value. -/
structure ListingOptions where
  tokens : Bool := false
  tree : Bool := false
  deriving DecidableEq, Repr

/-- A mark under the character at `position` of a line that is set in by two spaces. -/
def caret (position : Nat) : String :=
  "  " ++ String.ofList (List.replicate position ' ') ++ "^"

/-- Runs one expression. -/
def runExpression (options : ListingOptions) (source : String) : Transcript :=
  match tokenize source with
  | .error error => [.reported error.message, .reported ("  " ++ source), .reported (caret error.position)]
  | .ok tokens =>
    (if options.tokens then [.printed (listTokens tokens)] else []) ++
      match parse tokens with
      | .error error => [.reported error.message]
      | .ok tree =>
        (if options.tree then [.printed tree.listingText] else []) ++
          match tree.evaluate with
          | .error error => [.reported error.message]
          | .ok x => [.printed (plainText x)]

/-- The expressions of a script, without the white space around them. -/
def scriptExpressions (script : String) : List String :=
  (((script.toList.splitOn '\n').map trim).filter fun line => !line.isEmpty && line.head? != some '#').map String.ofList

/-- Runs all expressions of a script, each whether or not earlier ones failed. -/
def runScript (options : ListingOptions) (script : String) : Transcript :=
  (scriptExpressions script).flatMap (runExpression options)

theorem runScript_append (options : ListingOptions) (a b : String) :
    runScript options (a ++ "\n" ++ b) = runScript options a ++ runScript options b := by
  have h : (a ++ "\n" ++ b).toList = a.toList ++ '\n' :: b.toList := by simp
  simp only [runScript, scriptExpressions, h, List.splitOn_append_cons_self, List.map_append, List.filter_append,
    List.flatMap_append]

end Calculator
