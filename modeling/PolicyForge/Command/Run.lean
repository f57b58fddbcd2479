import PolicyForge.Build.Companion
import PolicyForge.Build.Emit
import PolicyForge.Command.Arguments
import PolicyForge.Command.Settings
/-!
# The command

The command loads settings and a model, chooses runtime and compiler, builds, and then writes the
companions that were asked for, in the order log, project, script.  It ends well only if all of that
has been done.
-/
namespace PolicyForge.Command

structure Report where
  /-- The exit status, zero if all went well. -/
  status : Nat
  output : List String
  errors : List String
  deriving DecidableEq, Repr

def name : String := "policygen"

def usage : String :=
  "Usage: " ++ name ++ " [OPTIONS] <ASSEMBLY_NAME> <INPUT_PATH> <OUTPUT_PATH>"

/-- The loaded model at a path: a directory of definitions or one definition. -/
def loadModel (path : String) : Act CommandError Model := do
  let isDirectory ← Act.ask fun h => h.disk.isDirectory h.cwd path
  let isFile ← Act.ask fun h => h.disk.isFile h.cwd path
  if isDirectory then (Model.directory path none).load.mapError .model
  else if isFile then (Model.file path none).load.mapError .model
  else throw (.noInput path)

/-- The runtime: the one asked for, the one in the settings, or the greatest installed. -/
def chooseRuntime (o : BuildOrder) (s : Settings) : Except ReferenceError RuntimeChoice :=
  match o.runtime.or s.runtime with
  | some description => (RuntimeChoice.ofDescription description).map .given
  | none => .ok (.installed RuntimeChoice.standardCommand)

def chooseReferences (o : BuildOrder) (s : Settings) : Act CommandError ReferenceSource := do
  let runtime ← (Act.ofExcept (chooseRuntime o s)).mapError .references
  let cache ← s.cache
  return (ReferenceResolver.mk runtime cache (.ofAddress s.base)).resolve

def chooseCompiler (o : BuildOrder) (s : Settings) : Except BuildError Compiler :=
  if o.simulate then .ok (.simulated .pass)
  else (Compiler.Command.ofWords s.command).map .external

/-- A name, if it is given and not blank. -/
def given (name : Option String) : Option String := name.filter fun n => !Text.allBlank n.toList

/-- Writes the companions of a build that were asked for. -/
def writeCompanions (o : BuildOrder) (r : BuildResult) : Act BuildError Unit := do
  if o.log then
    let _ ← Build.writeLog r
  if let some project := given o.project then
    let _ ← Build.writeProject r project
  if let some script := given o.script then
    let _ ← Build.writeScript r script

/-- Builds what was ordered, and writes the companions if the build succeeds. -/
def build (o : BuildOrder) : Act CommandError BuildResult := do
  let settings ← Settings.load o.settings
  let model ← loadModel o.input
  let references ← chooseReferences o settings
  let compiler ← (Act.ofExcept (chooseCompiler o settings)).mapError .build
  let result ← (Build.emit references compiler model o.assembly o.output).mapError .build
  if result.succeeded then (writeCompanions o result).mapError .build
  return result

def reportOf : Except CommandError BuildResult → Report
  | .ok r =>
    if r.succeeded then ⟨0, [], []⟩
    else ⟨1, [], "Build failed with one or more errors:" :: r.diagnostics.map ("* " ++ ·)⟩
  | .error e =>
    if e.isCancelled then ⟨1, [], ["Cancelled."]⟩ else ⟨1, [], ["Error: " ++ e.message]⟩

def run (arguments : List String) (h : Host) : Report × Host :=
  let environment (name : String) := (h.environment.find? (·.1 == name)).map (·.2)
  match Invocation.ofArguments environment arguments with
  | .showVersion => (⟨0, [name ++ " " ++ Source.version], []⟩, h)
  | .showHelp => (⟨0, [usage], []⟩, h)
  | .refused => (⟨2, [], [usage]⟩, h)
  | .build order =>
    let (result, h) := build order h
    (reportOf result, h)

end PolicyForge.Command
