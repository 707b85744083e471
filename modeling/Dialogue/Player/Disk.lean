/-! Files by their paths: how they are read and written, and why that fails. -/

namespace Dialogue

/-- Why a file cannot be used. -/
inductive DiskFault where
  | missing
  /-- A file stands where the path needs a folder. -/
  | notFolder
  /-- A folder stands where the path needs a file. -/
  | isFolder
  | nameTooLong
  | other (reason : String)
  deriving DecidableEq

def DiskFault.message : DiskFault → String
  | .missing => "No such file or directory (os error 2)"
  | .notFolder => "Not a directory (os error 20)"
  | .isFolder => "Is a directory (os error 21)"
  | .nameTooLong => "File name too long (os error 36)"
  | .other reason => reason

/-- How files are read and written. -/
structure Disk (m : Type → Type) where
  read : (path : String) → m (Except DiskFault ByteArray)
  write : (path text : String) → m (Except DiskFault Unit)

end Dialogue
