import CodeAssist.Text.Lines

/-!
# File paths

A path is its text. Its components are the pieces between the separators, where empty pieces and
`.` stand for nothing, except that a path may begin with a separator (it is absolute) or with a
leading `.` (it names the working directory). The file name is the last component, unless that is
`..`; the extension is what follows the last dot of the file name, unless the name's only dot is
its first character.
-/

namespace CodeAssist.FilePath

open CodeAssist

/-! ### Parts -/

/-- A path taken apart: the text that opens it (a separator, a leading `.`, or nothing) and the
pieces between the later separators, up to the last one that stands for a component. -/
structure Parts where
  opening : List Char
  pieces : List (List Char)

/-- Whether a piece stands for no component. -/
def isSilent (piece : List Char) : Bool :=
  piece = [] || piece = ['.']

/-- Removes the pieces at the end that stand for no component. -/
def dropSilent (pieces : List (List Char)) : List (List Char) :=
  (pieces.reverse.dropWhile isSilent).reverse

/-- Takes a path apart. -/
def Parts.ofPath (path : String) : Parts :=
  match path.toList with
  | '/' :: body => ⟨['/'], dropSilent (Text.splitOn '/' body)⟩
  | ['.'] => ⟨['.'], []⟩
  -- The separator behind the leading dot is kept as an empty first piece.
  | '.' :: '/' :: body => ⟨['.'], dropSilent ([] :: Text.splitOn '/' body)⟩
  | body => ⟨[], dropSilent (Text.splitOn '/' body)⟩

/-- Joins pieces with separators. -/
def joinPieces (pieces : List (List Char)) : List Char :=
  ['/'].intercalate pieces

/-- The path with these parts. -/
def Parts.toPath (parts : Parts) : String :=
  String.ofList (parts.opening ++ joinPieces parts.pieces)

/-! ### The file name -/

/-- The last component, where it is a name. -/
def fileNameChars? (path : String) : Option (List Char) :=
  match (Parts.ofPath path).pieces.getLast? with
  | some ['.', '.'] => none
  | name => name

/-- The file name of a path: its last component, unless that is `..`. -/
def fileName? (path : String) : Option String :=
  (fileNameChars? path).map String.ofList

/-- Splits a file name at its last dot. A dot at the very front does not count. -/
def splitExtension (name : List Char) : List Char × Option (List Char) :=
  match name.reverse.dropWhile (· ≠ '.') with
  -- The dot itself, and at least one character before it.
  | _ :: c :: stem => ((c :: stem).reverse, some (name.reverse.takeWhile (· ≠ '.')).reverse)
  | _ => (name, none)

/-- The extension of the file name. -/
def extension? (path : String) : Option String := do
  let name ← fileNameChars? path
  (splitExtension name).2.map String.ofList

/-! ### Neighbours -/

/-- The path without its last component; none for the empty path and for the root. -/
def parent? (path : String) : Option String :=
  let parts := Parts.ofPath path
  if parts.pieces.isEmpty then
    -- The leading dot alone lies in the working directory.
    if parts.opening = ['.'] then some "" else none
  else some { parts with pieces := dropSilent parts.pieces.dropLast }.toPath

/-- The path with its file name's extension exchanged for, or extended by, a new one. A path
without a file name stays as it is. The old extension is cut off first, and where no file name is
left then, as in `..a`, nothing is put in its place. -/
def withExtension (path extension : String) : String :=
  let bare := match extension? path with
    | some old => (path.dropEnd old.length).toString
    | none => path
  match fileNameChars? bare with
  | none => bare
  | some name =>
    let parts := Parts.ofPath bare
    let renamed := (splitExtension name).1 ++ '.' :: extension.toList
    { parts with pieces := parts.pieces.dropLast ++ [renamed] }.toPath

end CodeAssist.FilePath
