import PolicyForge.Package.Reference
import PolicyForge.Source.Rendering
/-!
# Why a build stops

A build stops for a reason of its own or for that of a stage.  The reason of a stage is kept as it
is, so an interrupt is recognised through all stages.
-/
namespace PolicyForge

/-- What a rejected name was for. -/
inductive NameRole where
  | compilerCommand
  | assembly
  | project
  | script
  deriving DecidableEq, Repr

def NameRole.text : NameRole → String
  | .compilerCommand => "compiler command"
  | .assembly => "assembly name"
  | .project => "project name"
  | .script => "script file name"

/-- Why a name is rejected. -/
inductive NameFault where
  | noProgram
  | blank
  /-- The name is that of the assembly, up to the case of ASCII letters. -/
  | ofAssembly (name : String)
  deriving DecidableEq, Repr

def NameFault.text : NameFault → String
  | .noProgram => "must name a program"
  | .blank => "cannot be blank"
  | .ofAssembly name => "'" ++ name ++ "' is the assembly name"

inductive Companion where
  | log
  | project
  | script
  deriving DecidableEq, Repr

def Companion.text : Companion → String
  | .log => "a build log"
  | .project => "a project"
  | .script => "a LINQPad script"

/-- Why a build, or the writing of what goes with it, stops. -/
inductive BuildError where
  | blankAssemblyName
  | model (e : ModelError)
  | render (e : RenderError)
  | references (e : ReferenceError)
  | noReferences
  | compiler (name reason : String)
  | failedBuild (artifact : Companion)
  | missingDirectory (path : String)
  | invalidName (role : NameRole) (fault : NameFault)
  | io (e : IoError)
  | cancelled

namespace BuildError

def message : BuildError → String
  | .blankAssemblyName => "Assembly name cannot be blank"
  | .model e => e.message
  | .render e => e.message
  | .references e => e.message
  | .noReferences =>
    "Cannot obtain runtime reference assemblies: the reference source returned none"
  | .compiler name reason => "Compiler backend '" ++ name ++ "' failed: " ++ reason
  | .failedBuild artifact => "Cannot generate " ++ artifact.text ++ " from a failed build result"
  | .missingDirectory path => "Output directory '" ++ path ++ "' does not exist"
  | .invalidName role fault => "Invalid " ++ role.text ++ ": " ++ fault.text
  | .io e => "IO error: " ++ e.message
  | .cancelled => cancelledMessage

/-- Whether an interrupt is the reason, in whatever stage. -/
def isCancelled : BuildError → Bool
  | .cancelled => true
  | .model e => e.isCancelled
  | .render e => e.isCancelled
  | .references e => e.isCancelled
  | _ => false

end BuildError

end PolicyForge
