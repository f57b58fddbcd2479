import PolicyForge.Package.Feed
import PolicyForge.Text.Utf8
/-!
# Resolving references

The references of a build are those of a runtime.  The runtime is given, or the greatest that is
installed; its package comes from the cache, into which it is downloaded if it is not there yet.
-/
namespace PolicyForge

inductive RuntimeChoice where
  | given (runtime : RuntimeIdentity)
  /-- The greatest runtime that a command lists. -/
  | installed (command : String)
  deriving DecidableEq, Repr

namespace RuntimeChoice

/-- The command that lists the installed runtimes unless another is named. -/
def standardCommand : String := "dotnet"

def listArgument : String := "--list-runtimes"

def ofListing (command : String) (e : Execution) : Except ReferenceError RuntimeIdentity :=
  if e.succeeded then
    match RuntimeIdentity.highestListed (Text.ofBytes e.output) with
    | some r => .ok r
    | none => .error (.probe ("no " ++ RuntimeIdentity.sharedFramework ++ " runtime installed"))
  else
    .error (.probe
      (command ++ " " ++ listArgument ++ " exited with exit status: " ++ toString e.status))

def identify : RuntimeChoice → Act ReferenceError RuntimeIdentity
  | .given r => return r
  | .installed command => do
    let e ← Act.run (fun e => .probe (command ++ ": " ++ e.message)) command [listArgument]
    Act.ofExcept (ofListing command e)

def ofDescription (description : String) : Except ReferenceError RuntimeIdentity :=
  match RuntimeIdentity.parse description with
  | some r => .ok r
  | none => .error (.unknownRuntime description)

end RuntimeChoice

/-- Where references come from. -/
abbrev ReferenceSource := Act ReferenceError (List Reference)

def ReferenceSource.fixed (references : List Reference) : ReferenceSource := do
  Act.checkpoint .cancelled
  return references

/-- The references of a runtime, through a cache and from a feed. -/
structure ReferenceResolver where
  runtime : RuntimeChoice
  cache : PackageCache
  feed : PackageFeed

namespace ReferenceResolver

/-- Downloads the package of a version into its slot.  A download that fails leaves nothing. -/
def fill (r : ReferenceResolver) (v : Version) : Act ReferenceError String := do
  let incoming ← (r.cache.start v).mapError .io
  match ← Act.attempt (r.feed.download v incoming) with
  | .ok complete => complete.commit.mapError .io
  | .error e =>
    incoming.discard
    throw e

/-- The package of the runtime, downloaded if the cache does not have it. -/
def package (r : ReferenceResolver) : Act ReferenceError String := do
  Act.checkpoint .cancelled
  let runtime ← r.runtime.identify
  if !runtime.isSupported then throw (.unsupportedRuntime runtime)
  Act.checkpoint .cancelled
  r.cache.ensure.mapError .io
  if ← r.cache.isUsable runtime.version then return r.cache.slot runtime.version
  Act.checkpoint .cancelled
  r.fill runtime.version

/-- The references of the runtime, at least one. -/
def resolve (r : ReferenceResolver) : ReferenceSource := do
  let path ← r.package
  Act.checkpoint .cancelled
  let references ← Package.readReferences path
  if references.isEmpty then throw (.noReferences path)
  return references

end ReferenceResolver

end PolicyForge
