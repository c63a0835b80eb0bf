import Graft.Disk.Path

/-!
# Disks

Files and directories, seen from a working directory. A place is named by the directory names that
lead there and its own name. Paths are followed as the system does it: one part after the other,
each of them inside a directory. Of the directories above the working directory nothing is known
but that they are there.
-/

namespace Graft

/-! ### Locations -/

/-- The directory that a location is counted from. -/
inductive Anchor where
  | root
  /-- The directory that many steps above the working directory. -/
  | above (steps : Nat)
deriving DecidableEq, Repr, Inhabited

/-- The directory one step above. The root is its own. -/
def Anchor.up : Anchor → Anchor
  | .root => .root
  | .above steps => .above (steps + 1)

/-- A place: the names that lead there from its anchor. -/
structure Location where
  anchor : Anchor := .above 0
  names : List String := []
deriving DecidableEq, Repr, Inhabited

namespace Location

/-- The working directory. -/
def working : Location := {}

/-- The root directory. -/
def root : Location := { anchor := .root }

/-- The place of that name inside this one. -/
def inner (l : Location) (name : String) : Location :=
  { l with names := l.names ++ [name] }

/-- The directory of a place. -/
def parent (l : Location) : Location :=
  if l.names = [] then { anchor := l.anchor.up } else { l with names := l.names.dropLast }

/-- The names that lead from this place to another one below it. -/
def namesTo? (l below : Location) : Option (List String) :=
  if l.anchor = below.anchor ∧ l.names.isPrefixOf below.names ∧
      l.names.length < below.names.length then
    some (below.names.drop l.names.length)
  else
    none

@[simp]
theorem parent_inner (l : Location) (name : String) : (l.inner name).parent = l := by
  simp [inner, parent]

end Location

/-! ### Contents and faults -/

/-- What a file holds. -/
inductive Contents where
  | text (s : String)
  /-- Bytes that encode no text. -/
  | binary (bytes : List UInt8)
deriving DecidableEq, Repr, Inhabited

/-- Why the system refuses an operation. -/
inductive DiskFault where
  | notFound
  | exists
  | isADirectory
  | notADirectory
  | nameTooLong
  | notText
  /-- Any other reason, in the system's words. -/
  | other (reason : String)
deriving DecidableEq, Repr

/-- The system's wording. -/
def DiskFault.message : DiskFault → String
  | .notFound => "No such file or directory (os error 2)"
  | .exists => "File exists (os error 17)"
  | .notADirectory => "Not a directory (os error 20)"
  | .isADirectory => "Is a directory (os error 21)"
  | .nameTooLong => "File name too long (os error 36)"
  | .notText => "stream did not contain valid UTF-8"
  | .other reason => reason

/-- Files, which hold an `α` each, and directories. -/
structure Disk (α : Type) where
  files : List (Location × α) := []
  directories : List Location := []
deriving DecidableEq, Repr, Inhabited

/-- What stands at a path. -/
inductive Standing (α : Type) where
  | missing
  /-- The path leads through a file. -/
  | blocked
  /-- The path or one of its names is too long. -/
  | tooLong
  | directory (location : Location)
  | file (location : Location) (contents : α)
deriving DecidableEq, Repr

namespace Standing

variable {α : Type}

/-- Whether it is a file. -/
def isFile : Standing α → Bool
  | .file .. => true
  | _ => false

/-- Whether it is a directory. -/
def isDirectory : Standing α → Bool
  | .directory _ => true
  | _ => false

/-- Whether anything stands there. -/
def isThere (s : Standing α) : Bool :=
  s.isFile || s.isDirectory

/-- Read what stands there as a text. -/
def read : Standing Contents → Except DiskFault String
  | .missing => .error .notFound
  | .blocked => .error .notADirectory
  | .tooLong => .error .nameTooLong
  | .directory _ => .error .isADirectory
  | .file _ (.binary _) => .error .notText
  | .file _ (.text s) => .ok s

/-- The directory that stands there, to look up a name in it. -/
def toDirectory : Standing α → Except DiskFault Location
  | .missing => .error .notFound
  | .blocked | .file .. => .error .notADirectory
  | .tooLong => .error .nameTooLong
  | .directory location => .ok location

end Standing

/-- How many bytes a name may have. -/
def maxNameBytes : Nat := 255

/-- How many bytes a path may have. -/
def maxPathBytes : Nat := 4095

namespace Disk

variable {α : Type}

/-! ### Looking -/

/-- What stands at a location. Where the counting starts there is a directory. -/
def standingAt (d : Disk α) (location : Location) : Standing α :=
  match d.files.lookup location with
  | some contents => .file location contents
  | none =>
    if location.names = [] ∨ location ∈ d.directories then .directory location else .missing

/-- Go on by one part of a path. -/
def enter (d : Disk α) (here : Standing α) (piece : String) : Standing α :=
  match here with
  | .missing => .missing
  | .tooLong => .tooLong
  | .blocked | .file .. => .blocked
  | .directory location =>
    if piece = "" ∨ piece = "." then .directory location
    else if piece = ".." then .directory location.parent
    else if maxNameBytes < piece.utf8ByteSize then .tooLong
    else d.standingAt (location.inner piece)

/-- Where following a path starts. An empty path leads nowhere. -/
def startOf (p : Path) : Standing α :=
  if p.text = "" then .missing
  else if maxPathBytes < p.text.utf8ByteSize then .tooLong
  else if p.isAbsolute then .directory .root
  else .directory .working

/-- What stands at a path. -/
def standing (d : Disk α) (p : Path) : Standing α :=
  p.pieces.foldl d.enter (startOf p)

/-- The names in a directory. -/
def namesIn (directory : Location) (locations : List Location) : List String :=
  locations.filterMap fun l =>
    if l.names ≠ [] ∧ l.parent = directory then l.names.getLast? else none

/-- Everything there is, files and directories. -/
def locations (d : Disk α) : List Location :=
  d.files.map (·.1) ++ d.directories

/-- The same files and directories without the contents. -/
def listing (d : Disk α) : Disk Unit where
  files := d.files.map fun (location, _) => (location, ())
  directories := d.directories

/-! ### Changing -/

/-- Put contents into the file at a location. -/
def put (d : Disk α) (location : Location) (contents : α) : Disk α :=
  match d.files.lookup location with
  | some _ =>
    { d with files := d.files.map fun (l, c) => (l, if l = location then contents else c) }
  | none => { d with files := d.files ++ [(location, contents)] }

/-- The parts of a path without the slashes at its end. -/
def withoutEmptyEnd (pieces : List String) : List String :=
  (pieces.reverse.dropWhile (· = "")).reverse

/-- The directory in which the last part of a path is looked up, and that part, which is empty if
the path has no parts. -/
def lastStep (d : Disk α) (p : Path) : Except DiskFault (Location × String) := do
  let pieces := withoutEmptyEnd p.pieces
  let here ← (pieces.dropLast.foldl d.enter (startOf p)).toDirectory
  pure (here, pieces.getLast?.getD "")

/-- Write a file, a new one or one that exists. A slash at the end of the path asks for a directory,
so there is nothing to write. -/
def write (d : Disk α) (p : Path) (contents : α) : Except DiskFault (Disk α) := do
  let (here, name) ← d.lastStep p
  if p.pieces.getLast? = some "" then
    .error .isADirectory
  else
    match d.enter (.directory here) name with
    | .directory _ => .error .isADirectory
    | .tooLong => .error .nameTooLong
    | _ => .ok (d.put (here.inner name) contents)

/-- Create the directory at the end of a path. -/
def makeDirectory (d : Disk α) (p : Path) : Except DiskFault (Disk α) := do
  let (here, name) ← d.lastStep p
  match d.enter (.directory here) name with
  | .missing => .ok { d with directories := d.directories ++ [here.inner name] }
  | .tooLong => .error .nameTooLong
  | _ => .error .exists

/-! ### Laying out -/

/-- All beginnings of a list of names but the empty one, the shortest first. -/
def beginnings (names : List String) : List (List String) :=
  (List.range names.length).map fun n => names.take (n + 1)

/-- The disk with these files and directories below the working directory, and the directories that
lead to them. -/
def layOut (files : List (List String × α)) (directories : List (List String)) : Disk α where
  files := files.map fun (names, contents) => ({ names }, contents)
  directories := ((files.flatMap (beginnings ·.1.dropLast) ++
    directories.flatMap beginnings).map fun names => { names }).eraseDups

end Disk

end Graft
