import PolicyForge.Build.Compiler
import PolicyForge.Data.Toml
import PolicyForge.Package.Resolve
/-!
# Settings

Settings come from a file that may be missing; each of them may be missing too and has a value of
its own then.  A file with anything else in it is refused.
-/
namespace PolicyForge

structure Settings where
  cacheDir : Option String
  packageBase : Option String
  /-- A description of the runtime to compile against. -/
  runtime : Option String
  compilerCommand : Option (List String)
  /-- How long a download may take. -/
  timeoutSeconds : Option Nat
  deriving DecidableEq, Repr

inductive CommandError where
  | settings (path : String)
  /-- There is no place for a file that is not named. -/
  | noPlace (reason : String)
  | noInput (path : String)
  | model (e : ModelError)
  | references (e : ReferenceError)
  | build (e : BuildError)
  | io (e : IoError)

namespace CommandError

def message : CommandError → String
  | .settings path => "Configuration error: " ++ path ++ ": TOML parse error"
  | .noPlace reason => "Configuration error: " ++ reason
  | .noInput path => "Invalid input: '" ++ path ++ "' is neither a file nor a directory"
  | .model e => e.message
  | .references e => e.message
  | .build e => e.message
  | .io e => "IO error: " ++ e.message

def isCancelled : CommandError → Bool
  | .model e => e.isCancelled
  | .references e => e.isCancelled
  | .build e => e.isCancelled
  | _ => false

end CommandError

namespace Settings

def empty : Settings := ⟨none, none, none, none, none⟩

/-- The settings with one more, if there is a setting of this name and type. -/
def assign (s : Settings) : String × Data.Toml.Value → Option Settings
  | ("cache_dir", .text t) => some { s with cacheDir := some t }
  | ("package_base_url", .text t) => some { s with packageBase := some t }
  | ("runtime", .text t) => some { s with runtime := some t }
  | ("compiler_command", .texts ts) => some { s with compilerCommand := some ts }
  | ("request_timeout_seconds", .integer i) =>
    if 0 ≤ i then some { s with timeoutSeconds := some i.toNat } else none
  | _ => none

def ofText (text : String) : Option Settings := do
  (← Data.Toml.read text).foldlM assign empty

/-! ## Places -/

/-- The home directory: that of the environment, or else that of the account. -/
def home? : Act CommandError (Option String) := do
  let given (dir : Option String) := dir.filter fun d => !d.isEmpty
  return (given (← Act.environmentValue? "HOME")).or (given (← Act.ask Host.accountHome))

/-- A directory below the home directory, unless the environment names another one. -/
def place (variableName below reason : String) : Act CommandError String := do
  let named := (← Act.environmentValue? variableName).filter Path.isAbsolute
  match named, ← home? with
  | some dir, _ => return dir
  | none, some home => return Path.join home below
  | none, none => throw (.noPlace reason)

/-- The settings file unless another is named. -/
def standardPath : Act CommandError String := do
  let dir ← place "XDG_CONFIG_HOME" ".config" "Cannot find config directory"
  return Path.join (Path.join dir "policygen") "config.toml"

/-- The settings in a file; without the file there are none. -/
def load (path : Option String) : Act CommandError Settings := do
  let path ← match path with
    | some p => pure p
    | none => standardPath
  if ← Act.ask fun h => h.disk.pathExists h.cwd path then
    match ofText (← Act.readText .io path) with
    | some s => return s
    | none => throw (.settings path)
  else return empty

/-! ## What is used -/

def cache (s : Settings) : Act CommandError PackageCache :=
  match s.cacheDir with
  | some dir => return ⟨dir⟩
  | none => do
    return .below (← place "XDG_DATA_HOME" ".local/share" "Cannot find local data directory")

def base (s : Settings) : String := s.packageBase.getD PackageFeed.defaultBase

def timeout (s : Settings) : Nat := s.timeoutSeconds.getD 300

def command (s : Settings) : List String := s.compilerCommand.getD Compiler.standardCommand

/-! ## As documents -/

open Data

def toJson (s : Settings) : Json :=
  let text := Json.ofOption Json.string
  Json.ofFields
    [("cache_dir", text s.cacheDir), ("package_base_url", text s.packageBase),
      ("runtime", text s.runtime),
      ("compiler_command", Json.ofOption (fun ws => .array (ws.map .string)) s.compilerCommand),
      ("request_timeout_seconds", Json.ofOption (fun n : Nat => .int n) s.timeoutSeconds)]

end Settings

end PolicyForge
