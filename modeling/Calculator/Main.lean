import Calculator.CommandLine.Response

/-!
# The program

Reads the file that is asked for, and writes what `Calculator.respond` answers.
-/

namespace Calculator

/-- Why the operating system refused a file. -/
def ReadFailure.ofError : IO.Error → ReadFailure
  | .noFileOrDirectory .. => .notFound
  | .inappropriateType _ code _ => if code = 21 then .isDirectory else .notDirectory
  | error => .other (toString error)

/-- The text of a file. -/
def readTextFile (path : String) : IO (Except ReadFailure String) := do
  try
    let bytes ← IO.FS.readBinFile path
    return decodeText bytes
  catch error =>
    return .error (ReadFailure.ofError error)

/-- Writes a transcript to the standard output and the error output. -/
def Transcript.write (t : Transcript) : IO Unit := do
  for entry in t do
    match entry with
    | .printed text => IO.println text
    | .reported text => IO.eprintln text

end Calculator

open Calculator in
def main (arguments : List String) : IO UInt32 := do
  let request := Request.ofArguments arguments
  let text ← match request with
    | .ok ⟨true, _, path⟩ => readTextFile path
    | _ => pure (.error .notFound)
  let response := respond (fun _ => text) arguments
  response.transcript.write
  return response.exitStatus.toUInt32
