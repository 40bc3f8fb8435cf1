import Calculator.CommandLine.Arguments
import Calculator.CommandLine.Directory

/-!
# Responses

What the program answers to its arguments: a transcript and an exit status, which is 0 if all went well, 1 if an
error was reported and 2 if the arguments could not be used.
-/

namespace Calculator

/-- What the program answers. -/
structure Response where
  transcript : Transcript
  exitStatus : Nat
  deriving DecidableEq, Repr

/-- The line that tells the version. -/
def versionLine : String :=
  "calcrs 0.1.0"

/-- The line that tells how arguments are given. -/
def usageLine : String :=
  "Usage: calcrs [OPTIONS] <CONTENTS>"

/-- The lines of help. -/
def helpLines : List String := [
  "Evaluates arithmetic expressions such as 2 ^ -3 + sqrt(16).",
  "",
  usageLine,
  "",
  "Arguments:",
  "  <CONTENTS>  The expression, or the path to read with --file",
  "",
  "Options:",
  "  -f, --file        Treat <CONTENTS> as a file with one expression per line",
  "      --tokens      Print the tokens of each expression before its result",
  "      --tree        Print the expression tree of each expression before its result",
  "  -v, --verbose...  Increase log verbosity",
  "  -h, --help        Print help",
  "  -V, --version     Print version"]

/-- The response to arguments that ask for no run. -/
def Interruption.respond : Interruption → Response
  | usageError => ⟨[.reported usageLine], 2⟩
  | version => ⟨[.printed versionLine], 0⟩
  | help => ⟨helpLines.map .printed, 0⟩

namespace Request

/-- Runs a script that was asked for. -/
def respondTo (r : Request) (script : String) : Response :=
  let transcript := runScript r.listing script
  ⟨transcript, if transcript.hasFailed then 1 else 0⟩

/-- The response to a request, where files are read by `readText`. -/
def respond (r : Request) (readText : String → Except ReadFailure String) : Response :=
  if r.fromFile then
    match readText r.contents with
    | .ok script => r.respondTo script
    | .error failure =>
      ⟨[.reported ("Failed to read the input file '" ++ r.contents ++ "': " ++ failure.message)], 1⟩
  else r.respondTo r.contents

end Request

/-- The response to arguments, where files are read by `readText`. -/
def respond (readText : String → Except ReadFailure String) (arguments : List String) : Response :=
  match Request.ofArguments arguments with
  | .ok request => request.respond readText
  | .error interruption => interruption.respond

end Calculator
