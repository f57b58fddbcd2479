import PolicyForge.Build.Compiler
/-!
# Build results

The result of a build names the assembly, its directory and its files only if the build succeeded,
so a failed build is never taken for a usable one.  The diagnostics are lines of text.
-/
namespace PolicyForge

structure BuildResult where
  assembly : Option String
  directory : Option String
  succeeded : Bool
  diagnostics : List String
  binary : Option String
  symbols : Option String
  documentation : Option String
  deriving DecidableEq, Repr

namespace BuildResult

def failed (diagnostics : List String) : BuildResult :=
  ⟨none, none, false, diagnostics, none, none, none⟩

def success (assembly directory : String) (targets : EmitTargets) (diagnostics : List String) :
    BuildResult :=
  ⟨some assembly, some directory, true, diagnostics, some targets.binary, some targets.symbols,
    some targets.documentation⟩

/-! ## As documents -/

open Data Data.Fields

def decode : Decoder BuildResult :=
  Record.decode "struct EmitResult"
    ["assembly_name", "output_dir", "build_succeeded", "diagnostics", "binary_path", "symbols_path",
      "documentation_path"]
    (BuildResult.mk <$> nullable "assembly_name" Decode.string
      <*> nullable "output_dir" Decode.path <*> needed "build_succeeded" Decode.bool
      <*> needed "diagnostics" (Decode.list Decode.string)
      <*> nullable "binary_path" Decode.path <*> nullable "symbols_path" Decode.path
      <*> nullable "documentation_path" Decode.path)

def toJson (r : BuildResult) : Json :=
  let text := Json.ofOption Json.string
  Json.ofFields
    [("assembly_name", text r.assembly), ("output_dir", text r.directory),
      ("build_succeeded", .bool r.succeeded), ("diagnostics", .array (r.diagnostics.map .string)),
      ("binary_path", text r.binary), ("symbols_path", text r.symbols),
      ("documentation_path", text r.documentation)]

end BuildResult

end PolicyForge
