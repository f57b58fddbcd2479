import PolicyForge.Build.Diagnostic
import PolicyForge.Build.Failure
import PolicyForge.Host.Unique
import PolicyForge.Text.Utf8
/-!
# Compilers

A compiler gets one source file and the references it may see, and writes three files side by side.
It reports whether it succeeded and what it found; a compilation that fails is an outcome and not an
error.  There are two compilers: a placeholder with a given outcome, and an external command.
-/
namespace PolicyForge

/-- The three files that one compilation writes. -/
structure EmitTargets where
  binary : String
  symbols : String
  documentation : String
  deriving DecidableEq, Repr

def EmitTargets.inDirectory (dir assembly : String) : EmitTargets :=
  { binary := Path.join dir (assembly ++ ".dll")
    symbols := Path.join dir (assembly ++ ".pdb")
    documentation := Path.join dir (assembly ++ ".xml") }

def EmitTargets.toList (t : EmitTargets) : List String := [t.binary, t.symbols, t.documentation]

structure EmitRequest where
  /-- The path of the source, and the source itself. -/
  sourcePath : String
  source : String
  assembly : String
  references : List Reference
  targets : EmitTargets

/-- What a compiler reports, its diagnostics in order. -/
structure CompilerOutcome where
  success : Bool
  diagnostics : List Build.Diagnostic

def CompilerOutcome.pass : CompilerOutcome := ⟨true, []⟩

/-- The outcome of a compilation that fails with one error on a line. -/
def CompilerOutcome.failsAt (line : Nat) (message : String) : CompilerOutcome :=
  ⟨false, [⟨.error, some ⟨line, 0⟩, "CS0000", message⟩]⟩

structure Compiler where
  name : String
  emit : EmitRequest → Act BuildError CompilerOutcome

namespace Compiler

/-! ## The placeholder -/

def placeholderBinary (assembly : String) : String := "MZ simulated " ++ assembly

def placeholderSymbols (assembly : String) : String := "BSJB simulated " ++ assembly

def placeholderDocumentation (assembly : String) : String :=
  "<?xml version=\"1.0\"?>\n<doc>\n<assembly><name>" ++ assembly ++
    "</name></assembly>\n<members></members>\n</doc>\n"

/-- Writes a placeholder for each target. -/
def writePlaceholders (r : EmitRequest) : Act BuildError Unit := do
  Act.writeText .io r.targets.binary (placeholderBinary r.assembly)
  Act.writeText .io r.targets.symbols (placeholderSymbols r.assembly)
  Act.writeText .io r.targets.documentation (placeholderDocumentation r.assembly)

/-- A compiler with a given outcome, which writes its targets if it succeeds. -/
def simulated (outcome : CompilerOutcome) : Compiler :=
  { name := "simulated"
    emit := fun r => do
      Act.update fun h => { h with compilations := h.compilations + 1 }
      if outcome.success then writePlaceholders r
      return outcome }

/-! ## An external command -/

structure Command where
  program : String
  leading : List String
  deriving DecidableEq, Repr

/-- The command that is used unless another is configured. -/
def standardCommand : List String := ["csc"]

/-- The command that words make up; the first one has to name a program. -/
def Command.ofWords : List String → Except BuildError Command
  | [] => .error (.invalidName .compilerCommand .noProgram)
  | program :: leading =>
    if Text.allBlank program.toList then .error (.invalidName .compilerCommand .noProgram)
    else .ok ⟨program, leading⟩

def Command.words (c : Command) : List String := c.program :: c.leading

def fixedOptions : List String :=
  ["-nologo", "-noconfig", "-nostdlib+", "-target:library", "-deterministic", "-debug:portable",
    "-langversion:latest", "-utf8output"]

def targetOptions (t : EmitTargets) : List String :=
  ["-out:" ++ t.binary, "-pdb:" ++ t.symbols, "-doc:" ++ t.documentation]

/-- The references without those whose name has come before. -/
def distinctReferences (seen : List String) : List Reference → List Reference
  | [] => []
  | r :: rest =>
    if seen.contains r.name then distinctReferences seen rest
    else r :: distinctReferences (r.name :: seen) rest

def referencePath (dir : String) (r : Reference) : String := Path.join dir r.name

def referenceOptions (dir : String) (rs : List Reference) : List String :=
  rs.map fun r => "-reference:" ++ referencePath dir r

/-- All arguments of a compilation whose references are in a directory. -/
def arguments (c : Command) (r : EmitRequest) (dir : String) : List String :=
  c.leading ++ fixedOptions ++ targetOptions r.targets ++
    referenceOptions dir (distinctReferences [] r.references) ++ [r.sourcePath]

def writeReferences (dir : String) : List Reference → Act BuildError Unit
  | [] => return ()
  | r :: rest => do
    Act.writeBytes .io (referencePath dir r) r.content
    writeReferences dir rest

/-- The outcome that an execution of a command shows: the reports on its output, then those on its
error output. -/
def outcomeOf (e : Execution) : CompilerOutcome :=
  { success := e.succeeded
    diagnostics := Build.parseDiagnostics (Text.ofBytes e.output) ++
      Build.parseDiagnostics (Text.ofBytes e.errors) }

def commandName : String := "csc"

/-- A compilation by a command, with the references in a directory. -/
def compileIn (c : Command) (r : EmitRequest) (dir : String) : Act BuildError CompilerOutcome := do
  writeReferences dir (distinctReferences [] r.references)
  let e ← Act.run (fun e => .compiler commandName (c.program ++ ": " ++ e.message)) c.program
    (arguments c r dir)
  return outcomeOf e

def temporaryPlace : Act BuildError String := do
  return (← Act.environmentValue? "TMPDIR").getD "/tmp"

/-- A new temporary directory, whose name nobody else has. -/
def makeScratch : Act BuildError String := do
  let place ← temporaryPlace
  let n ← Act.freshNumber
  let dir := Path.join place ("policygen-refs" ++ identifierOf n)
  Act.makeDirectory .io dir
  return dir

/-- A compiler that runs a command and shows it its references in a temporary directory, which is
gone afterwards. -/
def external (c : Command) : Compiler :=
  { name := commandName
    emit := fun r => do
      let dir ← makeScratch
      let result ← Act.attempt (compileIn c r dir)
      Act.removeTree dir
      Act.ofExcept result }

end Compiler

end PolicyForge
