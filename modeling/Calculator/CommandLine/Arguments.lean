import Calculator.Script

/-!
# Command-line arguments

Arguments are read from left to right.

* an argument that begins with two hyphens is a flag by its name, which takes no value;
* an argument that begins with one hyphen is a group of one or more one-letter flags;
* `--` makes all later arguments positional, and so is every other argument, a single hyphen and the empty one
  included;
* exactly one positional argument is needed, and only the verbosity flag may be repeated;
* the flags for the version and for help end the reading where they stand, as the first mistake does.
-/

namespace Calculator

/-- The flags. -/
inductive Flag
  | file | tokens | tree | verbose | version | help
  deriving DecidableEq, Repr

namespace Flag

/-- The flag of a name after two hyphens. -/
def ofName? : String → Option Flag
  | "file" => some file
  | "tokens" => some tokens
  | "tree" => some tree
  | "verbose" => some verbose
  | "version" => some version
  | "help" => some help
  | _ => none

/-- The flag of a letter after one hyphen. -/
def ofLetter? : Char → Option Flag
  | 'f' => some file
  | 'v' => some verbose
  | 'V' => some version
  | 'h' => some help
  | _ => none

end Flag

/-- What a run is asked to do: to take a text, or the file of that name, and to list what is wanted. -/
structure Request where
  fromFile : Bool
  listing : ListingOptions
  contents : String
  deriving DecidableEq, Repr

/-- Why arguments ask for no run. -/
inductive Interruption
  | usageError
  | version
  | help
  deriving DecidableEq, Repr

/-- The arguments read up to now. -/
structure Arguments where
  file : Bool := false
  tokens : Bool := false
  tree : Bool := false
  contents : Option String := none
  deriving DecidableEq, Repr

namespace Arguments

/-- Takes a flag; `none` stands for one that does not exist. -/
def takeFlag (a : Arguments) : Option Flag → Except Interruption Arguments
  | some .file => if a.file then .error .usageError else .ok { a with file := true }
  | some .tokens => if a.tokens then .error .usageError else .ok { a with tokens := true }
  | some .tree => if a.tree then .error .usageError else .ok { a with tree := true }
  | some .verbose => .ok a
  | some .version => .error .version
  | some .help => .error .help
  | none => .error .usageError

/-- Takes a positional argument. -/
def takePositional (a : Arguments) (text : String) : Except Interruption Arguments :=
  if a.contents.isSome then .error .usageError else .ok { a with contents := some text }

/-- Takes an argument that may be a flag or a group of flags. -/
def take (a : Arguments) (argument : String) : Except Interruption Arguments :=
  match argument.toList with
  | '-' :: '-' :: name => a.takeFlag (Flag.ofName? (String.ofList name))
  | '-' :: letter :: letters => (letter :: letters).foldlM (fun a c => a.takeFlag (Flag.ofLetter? c)) a
  | _ => a.takePositional argument

/-- Takes all arguments. -/
def takeAll (a : Arguments) : List String → Except Interruption Arguments
  | [] => .ok a
  | "--" :: rest => rest.foldlM takePositional a
  | argument :: rest => do
    let a ← a.take argument
    a.takeAll rest

end Arguments

/-- The request that arguments make. -/
def Request.ofArguments (arguments : List String) : Except Interruption Request := do
  let a ← Arguments.takeAll {} arguments
  match a.contents with
  | some contents => .ok ⟨a.file, ⟨a.tokens, a.tree⟩, contents⟩
  | none => .error .usageError

end Calculator
