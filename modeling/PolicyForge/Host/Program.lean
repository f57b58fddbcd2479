import PolicyForge.Host.Disk
/-!
# Programs

A program is a file on the disk that may be run.  What it does with its arguments is a function of
its text: it changes the disk, writes to two outputs and ends with a status.
-/
namespace PolicyForge

/-- What a program leaves behind, apart from the disk. -/
structure Execution where
  /-- Zero if the program ended well. -/
  status : Nat
  output : ByteArray
  errors : ByteArray

def Execution.succeeded (e : Execution) : Bool := e.status == 0

/-- What programs do, by their text: with arguments, on a disk, in a directory of it. -/
abbrev Interpreter := String → List String → Disk → Location → Execution × Disk

end PolicyForge
