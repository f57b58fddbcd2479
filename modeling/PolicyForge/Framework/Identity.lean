import PolicyForge.Framework.Version
import PolicyForge.Text.Blank
import PolicyForge.Data.Json
/-!
# Runtimes

A runtime is a family and a version, described as `.NET 8.0.4` or `.NET Framework 4.8.9181.0`.  The
family is recognised by what a description starts with, the version by the last word that starts
with a digit.
-/
namespace PolicyForge

inductive RuntimeFamily where
  | native
  | framework
  | core
  | modern
  | unknown
  deriving DecidableEq, Repr

namespace RuntimeFamily

/-- What a description of a runtime of this family starts with. -/
def description : RuntimeFamily → String
  | .native => ".NET Native"
  | .framework => ".NET Framework"
  | .core => ".NET Core"
  | .modern => ".NET"
  | .unknown => "Unknown runtime"

def tag : RuntimeFamily → String
  | .native => "native"
  | .framework => "framework"
  | .core => "core"
  | .modern => "modern"
  | .unknown => "unknown"

/-- The families by which a description is recognised; the last one is the start of the others. -/
def recognised : List RuntimeFamily := [.native, .framework, .core, .modern]

def classify (text : String) : RuntimeFamily :=
  let cs := Text.trimStart text.toList
  (recognised.find? fun f => f.description.toList.isPrefixOf cs).getD .unknown

/-- Whether reference packages are published for a family. -/
def isSupported : RuntimeFamily → Bool
  | .core | .modern => true
  | _ => false

end RuntimeFamily

structure RuntimeIdentity where
  family : RuntimeFamily
  version : Version
  deriving DecidableEq, Repr

namespace RuntimeIdentity

def ofFrameworkVersion (v : Version) : RuntimeIdentity :=
  ⟨if 5 ≤ v.major then .modern else .core, v⟩

/-- Whether a reference package exists: from the third version on, in the supported families. -/
def isSupported (r : RuntimeIdentity) : Bool := r.family.isSupported && 3 ≤ r.version.major

def text (r : RuntimeIdentity) : String := r.family.description ++ " " ++ r.version.text

/-- The word of a description that holds the version. -/
def versionWord (description : String) : Option (List Char) :=
  (Text.words description.toList).reverse.find? fun w => (w.head?.map Text.isAsciiDigit).getD false

def parse (description : String) : Option RuntimeIdentity := do
  let word ← versionWord description
  let version ← Version.parseLenient (String.ofList word)
  return ⟨RuntimeFamily.classify description, version⟩

/-! ## Installed runtimes -/

/-- The name of the shared framework in a listing of runtimes. -/
def sharedFramework : String := "Microsoft.NETCore.App"

/-- The version on a line of a listing, if the line is about the shared framework. -/
def listedVersion? (line : List Char) : Option Version :=
  match Text.words line with
  | name :: version :: _ =>
    if name == sharedFramework.toList then Version.parseLenient (String.ofList version) else none
  | _ => none

def highestListed (listing : String) : Option RuntimeIdentity :=
  (Version.greatest ((Text.lines listing.toList).filterMap listedVersion?)).map ofFrameworkVersion

end RuntimeIdentity

end PolicyForge
