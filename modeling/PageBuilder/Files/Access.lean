/-!
# Files and paths

The program reads whole texts and writes whole texts. `FileAccess m` is what it needs for that; how
files are kept is up to `m`.

A path is a text whose parts are set apart by slashes. `Path.withExtension` exchanges what comes
after the last dot of a file's name; it is how a page's file is named after the file it was made
from.
-/

namespace PageBuilder.Files

/-! ## Reading and writing -/

/-- Why a file could not be read or written. -/
inductive FileError where
  | notFound
  | notADirectory
  | isADirectory
  | nameTooLong
  | tooManyLinks
  | permissionDenied
  | nulInName
  | notUtf8
  /-- Any other reason that the system gives, with its number. -/
  | other (reason : String) (number : Nat)
deriving DecidableEq, Repr

/-- A reason that the system gives, with its number. -/
def systemReason (reason : String) (number : Nat) : String :=
  reason ++ " (os error " ++ toString number ++ ")"

/-- The wording of an error. -/
def FileError.message : FileError → String
  | notFound => systemReason "No such file or directory" 2
  | notADirectory => systemReason "Not a directory" 20
  | isADirectory => systemReason "Is a directory" 21
  | nameTooLong => systemReason "File name too long" 36
  | tooManyLinks => systemReason "Too many levels of symbolic links" 40
  | permissionDenied => systemReason "Permission denied" 13
  | nulInName => "file name contained an unexpected NUL byte"
  | notUtf8 => "stream did not contain valid UTF-8"
  | other reason number => systemReason reason number

/-- Files as a program sees them: a path leads to a text that can be read and replaced. -/
class FileAccess (m : Type → Type) where
  /-- The text of a file. -/
  readText : String → m (Except FileError String)
  /-- Makes a file with a text, or replaces the text of the file that is there. -/
  writeText : String → String → m (Except FileError Unit)

/-! ## Paths with another extension

The old extension is taken off first, and what is left need not name a file any more: without its
extension, `..json` is the directory above.
-/

namespace Path

/-- The reversed path without slashes and `.` parts at its end. -/
def dropEnding : List Char → List Char
  | '/' :: rest => dropEnding rest
  | '.' :: '/' :: rest => dropEnding ('/' :: rest)
  | cs => cs
termination_by cs => cs.length

/-- What is before the last name of a path, and that name. A path that ends in `.` or `..` has no
last name. -/
def splitName? (path : List Char) : Option (List Char × List Char) :=
  let cs := dropEnding path.reverse
  let name := (cs.takeWhile (· != '/')).reverse
  if name = [] ∨ name = ".".toList ∨ name = "..".toList then none
  else some ((cs.dropWhile (· != '/')).reverse, name)

/-- Cuts a name at its last dot, which goes to neither side. A dot at the beginning does not
count. -/
def splitDot (name : List Char) : List Char × List Char :=
  match (name.reverse.dropWhile (· != '.')).drop 1 with
  | [] => (name, [])
  | before => (before.reverse, (name.reverse.takeWhile (· != '.')).reverse)

/-- The path shortened by the length of its last name's extension. -/
def dropExtension (path : List Char) : List Char :=
  match splitName? path with
  | none => path
  | some (_, name) => path.take (path.length - (splitDot name).2.length)

/-- The path with an extension after its last name, instead of the one that the name has. A path
without a last name stays as it is. -/
def addExtension (path extension : List Char) : List Char :=
  match splitName? path with
  | none => path
  | some (before, name) => before ++ (splitDot name).1 ++ '.' :: extension

/-- The path with another extension. -/
def withExtension (path extension : String) : String :=
  String.ofList (addExtension (dropExtension path.toList) extension.toList)

end Path

end PageBuilder.Files
