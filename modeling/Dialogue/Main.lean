import Dialogue.Player.Program

/-! The player on a real disk. -/

namespace Dialogue
namespace Disk

/-- Why the system does not give a file. -/
def fault : IO.Error → DiskFault
  | .noFileOrDirectory .. => .missing
  | .inappropriateType _ 20 _ => .notFolder
  | .inappropriateType _ 21 _ => .isFolder
  | .invalidArgument _ 36 _ => .nameTooLong
  | .permissionDenied _ code _ => .other ("Permission denied (os error " ++ toString code ++ ")")
  | error => .other (toString error)

/-- Tries something with a file. -/
def trying {α : Type} (action : IO α) : IO (Except DiskFault α) := do
  match ← action.toBaseIO with
  | .ok x => return .ok x
  | .error e => return .error (fault e)

/-- The files of the system. -/
def system : Disk IO where
  read path := trying (IO.FS.readBinFile path)
  write path text := trying (IO.FS.writeFile path text)

end Disk

/-- The numbers that a generator gives, one after the other. -/
def Chance.ofGenerator (g : StdGen) : Chance := ⟨go g⟩
where
  go (g : StdGen) (i : Nat) : Nat :=
    let (n, g) := randNat g 0 (UInt64.size - 1)
    match i with
    | 0 => n
    | i + 1 => go g i

end Dialogue

open Dialogue in
def main (args : List String) : IO UInt32 := do
  let seed ← IO.rand 0 (UInt64.size - 1)
  let outcome ← Program.run Disk.system (.ofGenerator (mkStdGen seed)) args
  (← IO.getStdout).putStr outcome.output
  (← IO.getStderr).putStr outcome.errors
  return outcome.code.toUInt32
