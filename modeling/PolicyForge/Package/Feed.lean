import PolicyForge.Package.Cache
import PolicyForge.Package.Reference
/-!
# The package feed

A feed answers with a package for every version that it knows.  A download asks once and writes
what comes into the file of an incoming package.  It stops at the first sign of an interrupt, also
while it waits.
-/
namespace PolicyForge

/-- The address below which a feed has its packages. -/
structure PackageFeed where
  base : String
  deriving DecidableEq, Repr

namespace PackageFeed

def defaultBase : String := "https://www.nuget.org/api/v2/package"

/-- The package with the references of a runtime. -/
def packageName : String := "Microsoft.NETCore.App.Ref"

/-- The feed below an address, which may end in separators. -/
def ofAddress (address : String) : PackageFeed :=
  ⟨String.ofList (Text.dropEndWhile (· == '/') address.toList)⟩

def standard : PackageFeed := ⟨defaultBase⟩

def address (f : PackageFeed) (v : Version) : String :=
  f.base ++ "/" ++ packageName ++ "/" ++ v.text

/-- Waits for something that never comes: only an interrupt ends the wait early. -/
def waitInVain (e : ReferenceError) : Act ReferenceError Unit := do
  Act.update fun h => { h with interrupt := h.interrupt.afterWait }
  Act.checkpoint .cancelled
  throw e

/-- The far side sets the interrupt, if it is one that does. -/
def interruptedBy (interrupts : Bool) : Act ReferenceError Unit :=
  Act.update fun h => if interrupts then { h with interrupt := .set } else h

/-- Writes the rest of a body as it comes, looking at the interrupt before each piece and while
waiting for it. -/
def receive (address : String) (bodyEnd : BodyEnd) (interrupts : Bool) :
    List ByteArray → IncomingPackage → Act ReferenceError IncomingPackage
  | [], p => do
    interruptedBy interrupts
    Act.checkpoint .cancelled
    match bodyEnd with
    | .complete =>
      Act.checkpoint .cancelled
      return p
    | .broken =>
      Act.checkpoint .cancelled
      throw (.download address .interrupted)
    | .stalled =>
      waitInVain (.download address .interrupted)
      return p
  | chunk :: rest, p => do
    Act.checkpoint .cancelled
    Act.checkpoint .cancelled
    let p ← p.write chunk
    receive address bodyEnd interrupts rest p

/-- Downloads the package of a version into the file of an incoming package. -/
def download (f : PackageFeed) (v : Version) (p : IncomingPackage) :
    Act ReferenceError IncomingPackage := do
  let address := f.address v
  match ← Act.request address with
  | .refused =>
    Act.checkpoint .cancelled
    throw (.download address .unanswered)
  | .silent interrupts =>
    interruptedBy interrupts
    waitInVain (.download address .unanswered)
    return p
  | .answered status chunks bodyEnd interrupts =>
    Act.checkpoint .cancelled
    if isErrorStatus status then throw (.download address (.status status))
    else receive address bodyEnd interrupts chunks p

end PackageFeed

end PolicyForge
