/-!
# Files

A run may read one file.  `Directory` is a working directory as such a run sees it: files by their names, and no
directories but itself and those above.  A path is followed name by name.
-/

namespace Calculator

/-- Why a file cannot be read. -/
inductive ReadFailure
  | notFound
  | isDirectory
  | notDirectory
  | invalidText
  /-- Any other reason, in the words of the system. -/
  | other (reason : String)
  deriving DecidableEq, Repr

/-- The reason in words. -/
def ReadFailure.message : ReadFailure → String
  | notFound => "No such file or directory (os error 2)"
  | isDirectory => "Is a directory (os error 21)"
  | notDirectory => "Not a directory (os error 20)"
  | invalidText => "stream did not contain valid UTF-8"
  | other reason => reason

/-- The text that bytes encode. -/
def decodeText (bytes : ByteArray) : Except ReadFailure String :=
  match String.fromUTF8? bytes with
  | some text => .ok text
  | none => .error .invalidText

/-- The bytes of a text are read as the text. -/
theorem decodeText_toUTF8 (text : String) : decodeText text.toUTF8 = .ok text := by
  have hvalid : text.toUTF8.IsValidUTF8 := text.isValidUTF8
  rw [decodeText, String.fromUTF8?, dif_pos hvalid]
  rfl

/-- The files of a working directory. -/
structure Directory where
  files : List (String × ByteArray)

/-- Where a path leads. -/
inductive Place
  /-- The working directory. -/
  | here
  /-- A directory above it. -/
  | above
  | file (bytes : ByteArray)

namespace Directory

/-- Follows one name of a path; the empty name is that of the directory itself. -/
def follow (d : Directory) : Place → String → Except ReadFailure Place
  | .file _, _ => .error .notDirectory
  | place, "" | place, "." => .ok place
  | _, ".." => .ok .above
  | .above, _ => .error .notFound
  | .here, name =>
    match d.files.lookup name with
    | some bytes => .ok (.file bytes)
    | none => .error .notFound

/-- The text of the file that a path leads to. -/
def readText (d : Directory) (path : String) : Except ReadFailure String :=
  if path.isEmpty then .error .notFound
  else do
    let start : Place := if path.toList.head? = some '/' then .above else .here
    match ← ((path.toList.splitOn '/').map String.ofList).foldlM d.follow start with
    | .file bytes => decodeText bytes
    | .here | .above => .error .isDirectory

/-- A file is read by its name. -/
theorem readText_eq {d : Directory} {name : String} {bytes : ByteArray} (h : d.files.lookup name = some bytes)
    (hslash : '/' ∉ name.toList) (hname : name ∉ ["", ".", ".."]) : d.readText name = decodeText bytes := by
  have hempty : name.isEmpty = false := by
    simpa using fun hnil => hname (by simp [hnil])
  have hstart : name.toList.head? ≠ some '/' := fun hhead => hslash (List.mem_of_head? hhead)
  have hfollow : d.follow .here name = .ok (.file bytes) := by
    unfold follow
    split <;> simp_all
  simp only [readText, hempty, if_neg hstart, List.splitOn_eq_singleton hslash, List.map_singleton, String.ofList_toList]
  simp [List.foldlM, hfollow, bind, Except.bind, pure, Except.pure]

end Directory

end Calculator
