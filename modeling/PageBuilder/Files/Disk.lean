import PageBuilder.Files.Access

/-!
# A disk

A `Disk` holds directories, links and names of files below one directory from which every path
starts. `Disk.resolve` follows a path part by part, through links as well, as an operating system
does, and says where it leads; reading and writing then depend only on that.

What a file holds is kept apart from its names, so a file may have several of them or none. Which
spellings make one name is up to the disk.
-/

namespace PageBuilder.Files

/-- The names from the top directory down to an entry. -/
abbrev Location := List String

/-- What a disk holds in one place. -/
inductive DiskEntry where
  | directory
  /-- A name of the file with this number. -/
  | file (number : Nat)
  /-- A symbolic link. Its path is followed instead, from the directory that the link is in. -/
  | link (path : String)
deriving DecidableEq, Repr

/-- Directories, files and links by location; the top directory needs no entry. -/
structure Disk where
  entries : List (Location × DiskEntry) := []
  /-- What the files hold, by number. -/
  files : List ByteArray := []
  /-- The numbers of the files that may be read but not written. -/
  readOnly : List Nat := []
  /-- How a name is kept: spellings that are kept alike are one name. -/
  spelling : String → String := id
  stored : ∀ l number, (l, .file number) ∈ entries → number < files.length := by simp

namespace Disk

/-- What is in a place. -/
def find? (d : Disk) (l : Location) : Option DiskEntry :=
  if l.isEmpty then some .directory else d.entries.lookup l

/-- What a file holds. -/
def content (d : Disk) (number : Nat) : ByteArray := d.files.getD number .empty

/-! ## Following paths -/

/-- The longest name of an entry, in bytes. -/
def nameLimit : Nat := 255

/-- No path is as long as this, in bytes. -/
def pathLimit : Nat := 4096

/-- How many links are followed on the way along one path. -/
def linkLimit : Nat := 40

/-- Whether a path ends in a slash, so that it can only mean a directory. -/
def isSlashed (path : String) : Bool := path.toList.getLast? == some '/'

/-- The directory from which the path of a link is followed that is in a directory. -/
def startOf (path : String) (here : Location) : Location :=
  if path.toList.head? == some '/' then [] else here

/-- The parts of a path, with empty ones left out. -/
def parts (path : String) : List String := (path.splitOn "/").filter (· != "")

/-- What a path leads to. -/
inductive Found where
  | directory
  | file (number : Nat)
  | nothing
deriving DecidableEq, Repr

/-- Where a path leads. -/
structure Target where
  location : Location
  found : Found
  /-- Whether the path ends in a slash. -/
  slashed : Bool

/-- The name of the entry; the top directory has none. -/
def Target.name (target : Target) : String := target.location.getLastD ""

/-- Why nothing is found under a name: there is no such entry, or there cannot be one. -/
def absence (name : String) : FileError :=
  if nameLimit < name.utf8ByteSize then .nameTooLong else .notFound

/-- Follows the parts of a path from a directory, through no more than a number of links. Only the
last part may lead to nothing. A link at the end counts as slashed if its path is. -/
def follow (d : Disk) (links : Nat) (slashed : Bool) (here : Location) :
    List String → Except FileError Target
  | [] => .ok ⟨here, .directory, slashed⟩
  | "." :: rest => d.follow links slashed here rest
  | ".." :: rest => d.follow links slashed here.dropLast rest
  | name :: rest =>
    let there := here ++ [d.spelling name]
    match d.find? there, links with
    | some .directory, links => d.follow links slashed there rest
    | some (.file number), _ =>
      if rest.isEmpty then .ok ⟨there, .file number, slashed⟩ else .error .notADirectory
    | some (.link _), 0 => .error .tooManyLinks
    | some (.link path), links + 1 =>
      if path = "" then .error .notFound
      else
        d.follow links (slashed || (rest.isEmpty && isSlashed path)) (startOf path here)
          (parts path ++ rest)
    | none, _ => if rest.isEmpty then .ok ⟨there, .nothing, slashed⟩ else .error (absence name)
termination_by parts => (links, parts.length)

/-- Where a path leads. -/
def resolve (d : Disk) (path : String) : Except FileError Target :=
  if path.toList.contains '\x00' then .error .nulInName
  else if path = "" then .error .notFound
  else if pathLimit ≤ path.utf8ByteSize then .error .nameTooLong
  else d.follow linkLimit (isSlashed path) [] (parts path)

/-! ## Changes -/

/-- Puts another content into a file. -/
def rewrite (d : Disk) (number : Nat) (bytes : ByteArray) : Disk :=
  { d with
    files := d.files.set number bytes
    stored := by simpa using d.stored }

/-- Makes a file in a place where there is nothing. -/
def create (d : Disk) (l : Location) (bytes : ByteArray) : Disk :=
  { d with
    entries := (l, .file d.files.length) :: d.entries
    files := d.files ++ [bytes]
    stored := by
      intro l' number h
      have hlength : (d.files ++ [bytes]).length = d.files.length + 1 := by simp
      rw [hlength]
      rcases List.mem_cons.1 h with heq | hold
      · obtain ⟨-, hnumber⟩ := Prod.mk.inj heq
        exact Nat.lt_succ_of_le (Nat.le_of_eq (DiskEntry.file.inj hnumber))
      · exact Nat.lt_succ_of_lt (d.stored l' number hold) }

/-- Makes a directory in a place where there is nothing. -/
def createDirectory (d : Disk) (l : Location) : Disk :=
  { d with
    entries := (l, .directory) :: d.entries
    stored := by
      intro l' number h
      rcases List.mem_cons.1 h with heq | hold
      · cases heq
      · exact d.stored l' number hold }

/-- Makes the directories along a path, as far as they are missing. -/
def makeDirectories (d : Disk) (path : String) : Disk :=
  (List.range (parts path).length).foldl
    (fun d n =>
      let l := ((parts path).take (n + 1)).map d.spelling
      if (d.find? l).isSome then d else d.createDirectory l) d

/-! ## Reading and writing -/

/-- The bytes of a file. -/
def readBytes (d : Disk) (path : String) : Except FileError ByteArray :=
  match d.resolve path with
  | .error e => .error e
  | .ok target =>
    match target.found with
    | .nothing => .error (absence target.name)
    | .directory => .error .isADirectory
    | .file number => if target.slashed then .error .notADirectory else .ok (d.content number)

/-- The text of a file. -/
def readText (d : Disk) (path : String) : Except FileError String :=
  match d.readBytes path with
  | .error e => .error e
  | .ok bytes =>
    match String.fromUTF8? bytes with
    | none => .error .notUtf8
    | some s => .ok s

/-- Makes or replaces a file. A path that can only mean a directory is refused as such, whatever its
last name. -/
def writeBytes (d : Disk) (path : String) (bytes : ByteArray) : Except FileError Disk :=
  match d.resolve path with
  | .error e => .error e
  | .ok target =>
    if target.slashed then .error .isADirectory
    else
      match target.found with
      | .directory => .error .isADirectory
      | .file number =>
        if number ∈ d.readOnly then .error .permissionDenied else .ok (d.rewrite number bytes)
      | .nothing =>
        if nameLimit < target.name.utf8ByteSize then .error .nameTooLong
        else .ok (d.create target.location bytes)

instance : FileAccess (StateM Disk) where
  readText path := do return (← get).readText path
  writeText path text := do
    match (← get).writeBytes path text.toUTF8 with
    | .error e => return .error e
    | .ok d =>
      set d
      return .ok ()

end Disk

end PageBuilder.Files
