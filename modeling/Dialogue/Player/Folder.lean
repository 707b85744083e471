import Dialogue.Table
import Dialogue.Player.Disk

/-! A folder in memory, and the disk that it makes. It holds files and no folders. Of the folders above it nothing is
    known but that they are there: nothing is found in them, and what is written there is lost. -/

namespace Dialogue

/-- A path taken apart at its slashes. -/
structure Path where
  /-- Whether it starts at the top of all folders. -/
  absolute : Bool
  steps : List String
  /-- Whether it ends with a slash, and so can only name a folder. -/
  namesFolder : Bool
  deriving DecidableEq

/-- Slashes next to each other count as one. -/
def Path.of (text : String) : Path where
  absolute := text.toList.head? = some '/'
  steps := ((text.toList.splitOn '/').filter (· ≠ [])).map String.ofList
  namesFolder := text.toList.getLast? = some '/'

/-- Where a path leads. -/
inductive Place where
  | folder
  /-- A name in the folder, or in one above it, whether or not there is a file of that name. -/
  | entry (inside : Bool) (name : String)
  deriving DecidableEq

structure Folder where
  files : Table ByteArray

namespace Folder

/-- A name takes no more than 255 bytes. -/
def isTooLong (name : String) : Bool := 255 < name.utf8ByteSize

/-- Follows the steps of a path from the folder, or from one above it. Every step but the last one has to lead to a
    folder; whether the last name may be used is left open. -/
def follow (f : Folder) (inside : Bool) : List String → Except DiskFault Place
  | [] => .ok .folder
  | "." :: steps => f.follow inside steps
  | ".." :: steps => f.follow false steps
  | [name] => .ok (.entry inside name)
  | name :: _ =>
    if isTooLong name then .error .nameTooLong
    else if inside && (f.files.get? name).isSome then .error .notFolder
    else .error .missing

/-- Finds the place of a path, which takes less than 4096 bytes. -/
def place (f : Folder) (path : String) : Except DiskFault Place :=
  if path = "" then .error .missing
  else if 4096 ≤ path.utf8ByteSize then .error .nameTooLong
  else f.follow (!(Path.of path).absolute) (Path.of path).steps

def read (f : Folder) (path : String) : Except DiskFault ByteArray := do
  match ← f.place path with
  | .folder => throw .isFolder
  | .entry inside name =>
    if isTooLong name then throw .nameTooLong
    match if inside then f.files.get? name else none with
    | none => throw .missing
    | some bytes => if (Path.of path).namesFolder then throw .notFolder else return bytes

/-- Writes a file, in place of one that is there already. -/
def write (f : Folder) (path text : String) : Except DiskFault Folder := do
  match ← f.place path with
  | .folder => throw .isFolder
  | .entry inside name =>
    if (Path.of path).namesFolder then throw .isFolder
    if isTooLong name then throw .nameTooLong
    return if inside then { files := f.files.insert name text.toUTF8 } else f

/-- The disk with a folder as its state. -/
def disk : Disk (StateM Folder) where
  read path := return (← get).read path
  write path text := do
    match (← get).write path text with
    | .error fault => return .error fault
    | .ok f =>
      set f
      return .ok ()

end Folder
end Dialogue
