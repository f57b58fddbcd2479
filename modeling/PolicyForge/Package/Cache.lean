import PolicyForge.Framework.Version
import PolicyForge.Host.Basic
import PolicyForge.Host.Unique
/-!
# The package cache

The cache is a directory with a slot for every version.  A package on its way into the cache has a
file of its own, which takes the place of the slot once it is complete.  So a slot never shows a
part of a package.  A slot that holds anything is trusted and not looked into again.
-/
namespace PolicyForge

structure PackageCache where
  dir : String
  deriving DecidableEq, Repr

/-- A package on its way into the cache. -/
structure IncomingPackage where
  path : String
  slot : String
  written : Nat
  deriving DecidableEq, Repr

namespace PackageCache

def slotName (v : Version) : String := "AppRef_" ++ v.text ++ "_Package.zip"

def incomingName (v : Version) (id : String) : String := ".AppRef_" ++ v.text ++ "_" ++ id ++ ".partial"

def slot (c : PackageCache) (v : Version) : String := Path.join c.dir (slotName v)

/-- The directory of the program below one of data. -/
def below (data : String) : PackageCache := ⟨Path.join data "policygen"⟩

def ensure (c : PackageCache) : Act IoError Unit := Act.makeDirectories id c.dir

/-- Whether something can be used at a node: a file that is not empty. -/
def usableNode : DiskNode → Bool
  | .file content _ => content.size ≠ 0
  | .directory => false

/-- Whether the slot of a version holds something that can be used. -/
def isUsable {ε : Type} (c : PackageCache) (v : Version) : Act ε Bool :=
  Act.ask fun h =>
    match h.disk.stat h.cwd (c.slot v) with
    | .ok n => usableNode n
    | .error _ => false

/-- Starts a package for the slot of a version, with a file that nobody else writes to. -/
def start (c : PackageCache) (v : Version) : Act IoError IncomingPackage := do
  let n ← Act.freshNumber
  let path := Path.join c.dir (incomingName v (identifierOf n))
  Act.writeBytes id path .empty
  return ⟨path, c.slot v, 0⟩

end PackageCache

namespace IncomingPackage

def write {ε : Type} (p : IncomingPackage) (bytes : ByteArray) : Act ε IncomingPackage := do
  Act.append p.path bytes
  return { p with written := p.written + bytes.size }

def commit (p : IncomingPackage) : Act IoError String := do
  Act.rename id p.path p.slot
  return p.slot

def discard {ε : Type} (p : IncomingPackage) : Act ε Unit := Act.removeQuietly p.path

end IncomingPackage

end PolicyForge
