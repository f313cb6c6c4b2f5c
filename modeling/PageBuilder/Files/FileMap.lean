import Mathlib.Logic.Function.Basic
import PageBuilder.Files.Access

/-!
# Files by path

A `FileMap` holds the bytes of each file under the path that leads to it. It says nothing about
directories: that a path cannot be read or written for any reason is a fault that it is given with.
Files are read and written as a whole or not at all.
-/

namespace PageBuilder.Files

/-- Files by path. -/
structure FileMap where
  /-- The bytes of the file that a path leads to, if there is one. -/
  contents : String → Option ByteArray
  /-- Why the file under a path cannot be read, if it cannot. -/
  readFault : String → Option FileError := fun _ => none
  /-- Why no file can be written under a path, if none can. -/
  writeFault : String → Option FileError := fun _ => none

namespace FileMap

/-- The bytes of a file. -/
def readBytes (files : FileMap) (path : String) : Except FileError ByteArray :=
  match files.readFault path, files.contents path with
  | some e, _ => .error e
  | none, none => .error .notFound
  | none, some bytes => .ok bytes

/-- The text of a file. -/
def readText (files : FileMap) (path : String) : Except FileError String :=
  match files.readBytes path with
  | .error e => .error e
  | .ok bytes =>
    match String.fromUTF8? bytes with
    | none => .error .notUtf8
    | some s => .ok s

/-- Makes or replaces the file under a path. -/
def put (files : FileMap) (path text : String) : FileMap :=
  { files with contents := Function.update files.contents path (some text.toUTF8) }

/-- Makes or replaces the file under a path, if it can be written. -/
def writeText (files : FileMap) (path text : String) : Except FileError FileMap :=
  match files.writeFault path with
  | some e => .error e
  | none => .ok (files.put path text)

instance : FileAccess (StateM FileMap) where
  readText path := do return (← get).readText path
  writeText path text := do
    match (← get).writeText path text with
    | .error e => return .error e
    | .ok files =>
      set files
      return .ok ()

/-- Bytes are read as the text that they are written from. -/
theorem fromUTF8?_eq_some_iff {bytes : ByteArray} {text : String} :
    String.fromUTF8? bytes = some text ↔ bytes = text.toUTF8 := by
  unfold String.fromUTF8?
  constructor
  · intro h
    split at h
    · cases h
      rfl
    · cases h
  · rintro rfl
    rw [dif_pos (show text.toUTF8.IsValidUTF8 from text.isValidUTF8)]
    rfl

/-- A file reads as a text exactly if its bytes are the text's. -/
theorem readText_eq_ok_iff {files : FileMap} {path text : String} :
    files.readText path = .ok text ↔ files.readBytes path = .ok text.toUTF8 := by
  rw [readText]
  cases files.readBytes path with
  | error e => simp
  | ok bytes =>
    simp only [Except.ok.injEq, ← fromUTF8?_eq_some_iff]
    cases String.fromUTF8? bytes <;> simp

end FileMap

end PageBuilder.Files
