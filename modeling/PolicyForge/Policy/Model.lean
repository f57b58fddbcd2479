import PolicyForge.Data.Json.Reader
import PolicyForge.Data.Yaml.Node
import PolicyForge.Host.Basic
import PolicyForge.Policy.Decode
/-!
# Policy models

A model is where policies come from: one definition file or a directory of them.  It holds nothing
until it has been loaded.  Loading either replaces everything it holds or leaves it as it was.
-/
namespace PolicyForge

inductive ModelError where
  | notLoaded (path : String)
  | invalidPath (path : String)
  | undecodable (path : String) (error : Data.DecodeError)
  | io (e : IoError)
  | cancelled
  deriving DecidableEq, Repr

def ModelError.message : ModelError → String
  | .notLoaded path => "Policy model is not loaded: " ++ path
  | .invalidPath path => "Invalid input path: " ++ path
  | .undecodable path e => "Cannot decode '" ++ path ++ "': " ++ e.message
  | .io e => "IO error: " ++ e.message
  | .cancelled => cancelledMessage

def ModelError.isCancelled : ModelError → Bool
  | .cancelled => true
  | _ => false

/-- The policies of a loaded model. -/
inductive PolicySet where
  | single (p : Policy)
  | many (ps : List Policy)
  deriving DecidableEq, Repr

def PolicySet.toList : PolicySet → List Policy
  | .single p => [p]
  | .many ps => ps

/-- The path of a model, and what has been loaded from it. -/
inductive Model where
  | file (path : String) (policy : Option Policy)
  | directory (path : String) (policies : Option (List Policy))
  deriving DecidableEq, Repr

def insertName (n : String) : List String → List String
  | [] => [n]
  | m :: rest => if n < m then n :: m :: rest else m :: insertName n rest

def sortNames (ns : List String) : List String := ns.foldr insertName []

namespace Definition

/-- The two ways to write a definition. -/
inductive Form where
  | json
  | yaml
  deriving DecidableEq, Repr

/-- How the definition at a path is written, if the path is that of a definition. -/
def form? (path : String) : Option Form :=
  match Path.extension path with
  | some "json" => some .json
  | some "yaml" | some "yml" => some .yaml
  | _ => none

def ofJsonText (text : String) : Data.Decoded Policy := do
  let document := Data.Json.read text
  let policy ← Policy.decode .text document.tree
  if document.trailing then .error .malformed else .ok policy

def ofYamlText (text : String) : Data.Decoded Policy :=
  match Data.Yaml.read text with
  | none => .error .malformed
  | some tree => Policy.decode .yaml tree

/-- What makes a policy of a text, by the way in which the text is written. -/
abbrev Decoder := Form → String → Data.Decoded Policy

def ofText : Decoder
  | .json => ofJsonText
  | .yaml => ofYamlText

def read (decode : Decoder) (form : Form) (path : String) : Act ModelError Policy := do
  let text ← Act.readText .io path
  match decode form text with
  | .ok p => return p
  | .error e => throw (.undecodable path e)

/-- Reads definitions in order, looking at the interrupt before each. -/
def readAll (decode : Decoder) : List (String × Form) → Act ModelError (List Policy)
  | [] => return []
  | (path, form) :: rest => do
    Act.checkpoint .cancelled
    let p ← read decode form path
    let ps ← readAll decode rest
    return p :: ps

/-- The definitions in a directory, in ascending order of their names. -/
def definitionsIn (path : String) (entries : List (String × DiskNode)) : List (String × Form) :=
  let files := (entries.filter fun e => e.2.isFile).map (·.1)
  (sortNames files).filterMap fun name =>
    (form? name).map fun form => (Path.join path name, form)

def readFile (decode : Decoder) (path : String) : Act ModelError Policy :=
  match form? path with
  | none => throw (.invalidPath path)
  | some form => do
    Act.checkpoint .cancelled
    read decode form path

def readDirectory (decode : Decoder) (path : String) : Act ModelError (List Policy) := do
  Act.checkpoint .cancelled
  let entries ← Act.reading
    (fun e => if e = .notFound then .invalidPath path else .io e) fun d cwd => d.list cwd path
  readAll decode (definitionsIn path entries)

end Definition

namespace Model

def path : Model → String
  | .file path _ => path
  | .directory path _ => path

def isLoaded : Model → Bool
  | .file _ p => p.isSome
  | .directory _ ps => ps.isSome

def policies : Model → Except ModelError PolicySet
  | .file _ (some p) => .ok (.single p)
  | .directory _ (some ps) => .ok (.many ps)
  | m => .error (.notLoaded m.path)

def ofPolicy (p : Policy) : Model := .file "" (some p)

def ofPolicies (ps : List Policy) : Model := .directory "" (some ps)

end Model

/-! ## Loading -/

/-- A job on a model in somebody's hands: it may change the model as well as the host, and what it
has changed by the time it fails stays changed. -/
abbrev Handling (α : Type) := ExceptT ModelError (StateT Model (StateM Host)) α

namespace Handling

/-- A job that leaves the model alone. -/
def act {α : Type} (a : Act ModelError α) : Handling α := fun m h =>
  match a h with
  | (r, h) => ((r, m), h)

def put (m : Model) : Handling Unit := fun _ h => ((.ok (), m), h)

end Handling

namespace Model

/-- Loads a model where it is. -/
def reload (decode : Definition.Decoder) : Handling Unit := do
  match ← get with
  | .file path _ =>
    let p ← Handling.act (Definition.readFile decode path)
    Handling.put (.file path (some p))
  | .directory path _ =>
    let ps ← Handling.act (Definition.readDirectory decode path)
    Handling.put (.directory path (some ps))

def load (m : Model) : Act ModelError Model := fun h =>
  match reload Definition.ofText m h with
  | ((.ok (), m), h) => (.ok m, h)
  | ((.error e, _), h) => (.error e, h)

end Model

end PolicyForge
