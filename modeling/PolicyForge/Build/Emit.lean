import PolicyForge.Build.Result
import PolicyForge.Layout.Normalize
import PolicyForge.Package.Resolve
/-!
# Building an assembly

A build renders a loaded model into a temporary file, normalizes the layout of what was rendered
into the source file, and compiles that against the references.  It looks at the interrupt before
every stage and after the last one.  What the compiler finds comes back as the diagnostics of the
result; only what keeps the build from being tried is an error.
-/
namespace PolicyForge.Build

/-- The file that a model is rendered into. -/
def temporaryPath (dir assembly : String) : String := Path.join dir (assembly ++ "_temp.cs")

def sourcePath (dir assembly : String) : String := Path.join dir (assembly ++ ".cs")

/-- The loaded model whose policies can be told, or why it cannot. -/
def requireLoaded (m : Model) : Act BuildError Unit :=
  match m.policies with
  | .ok _ => return ()
  | .error e => throw (.model e)

/-- Renders a model under the interrupt of the host. -/
def renderText (m : Model) (assembly : String) : Act BuildError String := fun h =>
  match Source.render m assembly h.interrupt with
  | (.ok (), pen) => (.ok pen.written, { h with interrupt := pen.interrupt })
  | (.error e, pen) => (.error (.render e), { h with interrupt := pen.interrupt })

def renderInto (path : String) (m : Model) (assembly : String) : Act BuildError Unit := do
  Act.writeText .io path ""
  let text ← renderText m assembly
  Act.writeText .io path text

/-- Renders a model into a file, or leaves no file. -/
def renderOrRemove (path : String) (m : Model) (assembly : String) : Act BuildError Unit := do
  match ← Act.attempt (renderInto path m assembly) with
  | .ok () => return ()
  | .error e =>
    Act.removeQuietly path
    throw e

/-- Moves what was rendered into the source file, with its layout normalized. -/
def normalizeInto (temporary target : String) : Act BuildError String := do
  Act.checkpoint .cancelled
  let rendered ← Act.readText .io temporary
  let source := Layout.normalize rendered
  Act.checkpoint .cancelled
  Act.writeText .io target source
  Act.removeFile .io temporary
  return source

def removeAllQuietly : List String → Act BuildError Unit
  | [] => return ()
  | path :: rest => do
    Act.removeQuietly path
    removeAllQuietly rest

/-- Compiles; an interrupt that was set in the meantime leaves none of the targets. -/
def compile (c : Compiler) (r : EmitRequest) : Act BuildError CompilerOutcome := do
  let outcome ← c.emit r
  if ← Act.look then
    removeAllQuietly r.targets.toList
    throw .cancelled
  return outcome

/-- The diagnostics that are passed on, each with its line of the source. -/
def reported (source : String) (ds : List Diagnostic) : List String :=
  (ds.filter fun d => d.severity.isReported).map fun d => formatDiagnostic d source

def resultOf (assembly dir source : String) (targets : EmitTargets) (o : CompilerOutcome) :
    BuildResult :=
  let diagnostics := reported source o.diagnostics
  if o.success then .success assembly dir targets diagnostics else .failed diagnostics

/-- The references of a build, at least one. -/
def obtainReferences (source : ReferenceSource) : Act BuildError (List Reference) := do
  Act.checkpoint .cancelled
  let references ← source.mapError .references
  if references.isEmpty then throw .noReferences
  return references

/-- Builds an assembly from a model into a directory. -/
def emit (source : ReferenceSource) (compiler : Compiler) (m : Model) (assembly dir : String) :
    Act BuildError BuildResult := do
  if Text.allBlank assembly.toList then throw .blankAssemblyName
  requireLoaded m
  Act.checkpoint .cancelled
  Act.makeDirectories .io dir
  let references ← obtainReferences source
  let temporary := temporaryPath dir assembly
  Act.checkpoint .cancelled
  renderOrRemove temporary m assembly
  let path := sourcePath dir assembly
  let text ← normalizeInto temporary path
  Act.checkpoint .cancelled
  let targets := EmitTargets.inDirectory dir assembly
  let outcome ← compile compiler ⟨path, text, assembly, references, targets⟩
  return resultOf assembly dir text targets outcome

end PolicyForge.Build
