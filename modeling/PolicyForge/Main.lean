import PolicyForge.Command.Run
import PolicyForge.Host.Script
/-!
# The program

The program gathers what the command may look at, the files and directories that its arguments and
settings name, runs the command on that, and then puts what has changed back on the disk.  It has no
network and no list of accounts, and of programs it runs scripts only.
-/
namespace PolicyForge

/-! ## Gathering -/

def absoluteLocation (cwd : Location) (path : String) : Location :=
  (Path.pieces path).foldl
    (fun l p => if p == "" || p == "." then l else if p == ".." then l.dropLast else l ++ [p])
    (if Path.isAbsolute path then [] else cwd)

def pathOf (l : Location) : String := "/" ++ "/".intercalate l

/-- The disk with the directories above a location. -/
def withParents (d : Disk) (l : Location) : Disk :=
  (List.range l.length).foldl
    (fun d n => if (d.node? (l.take n)).isSome then d else d.insert (l.take n) .directory) d

/-- The disk with the file at a location, if there is one. -/
def gatherFile (d : Disk) (l : Location) : IO Disk := do
  try
    let content ← IO.FS.readBinFile (pathOf l)
    return (withParents d l).insert l (.file content true)
  catch _ => return d

/-- The disk with the directory or the file at a location, and the files right in a directory. -/
def gather (d : Disk) (l : Location) : IO Disk := do
  let path := (← IO.currentDir) / pathOf l
  if ← path.isDir then
    let entries ← path.readDir
    let mut disk := (withParents d l).insert l .directory
    for entry in entries do
      let inner := l ++ [entry.fileName]
      if ← entry.path.isDir then disk := disk.insert inner .directory
      else disk ← gatherFile disk inner
    return disk
  else gatherFile d l

def gatherAll (d : Disk) (cwd : Location) (paths : List String) : IO Disk :=
  paths.foldlM (fun d p => gather d (absoluteLocation cwd p)) d

/-- The variables of the environment that the command reads. -/
def variableNames : List String :=
  ["HOME", "PATH", "TMPDIR", "XDG_CONFIG_HOME", "XDG_DATA_HOME", "POLICYGEN_CONFIG",
    "POLICYGEN_RUNTIME"]

def environmentNow : IO (List (String × String)) := do
  let values ← variableNames.mapM fun name => do
    return (← IO.getEnv name).map fun value => (name, value)
  return values.filterMap id

def randomNumber : IO Nat := do
  let bytes ← IO.getRandomBytes 15
  return bytes.foldl (fun n b => n * 256 + b.toNat) 0

/-- The paths that a job which only looks for a path leads to. -/
def found (h : Host) (job : Act CommandError String) : List String :=
  match (job h).1 with
  | .ok path => [path]
  | .error _ => []

/-- Where the programs of a build may be. -/
def programPaths (environment : List (String × String)) (names : List String) : List String :=
  let path := ((environment.find? (·.1 == "PATH")).map (·.2)).getD ""
  names.flatMap fun name =>
    name :: (Text.splitOn (· == ':') path.toList).map fun dir => Path.join (String.ofList dir) name

/-- The host as far as an order is about it. -/
def hostFor (order : BuildOrder) (environment : List (String × String)) : IO Host := do
  let cwd := absoluteLocation [] (← IO.currentDir).toString
  let bare : Host :=
    { disk := (withParents ⟨[]⟩ (cwd ++ [""])).insert ["tmp"] .directory
      cwd := cwd, interrupt := .quiet, environment := environment, execute := Script.run
      network := .none, fresh := ← randomNumber, compilations := 0 }
  let settingsPath := match order.settings with
    | some path => [path]
    | none => found bare Settings.standardPath
  let disk ← gatherAll bare.disk cwd settingsPath
  let settings := match (Settings.load order.settings { bare with disk := disk }).1 with
    | .ok s => s
    | .error _ => .empty
  let cache := found bare do return (← settings.cache).dir
  let programs := RuntimeChoice.standardCommand :: settings.command.take 1
  let disk ← gatherAll disk cwd ([order.input, order.output] ++ cache)
  let disk ← (programPaths environment programs).foldlM
    (fun d p => gatherFile d (absoluteLocation cwd p)) disk
  return { bare with disk := disk }

/-! ## Putting back -/

def differs (d : Disk) (l : Location) (content : ByteArray) : Bool :=
  match d.node? l with
  | some (.file old _) => old.data != content.data
  | _ => true

/-- Makes the disk of the machine, which was as `before`, as `after`. -/
def putBack (before after : Disk) : IO Unit := do
  for (l, n) in after.entries do
    match n with
    | .directory => if (before.node? l).isNone then IO.FS.createDirAll (pathOf l)
    | .file content _ =>
      if differs before l content then IO.FS.writeBinFile (pathOf l) content
  for (l, n) in before.entries do
    if n.isFile && (after.node? l).isNone then IO.FS.removeFile (pathOf l)

/-- Shows a report, and gives its status. -/
def showReport (r : Command.Report) : IO UInt32 := do
  for line in r.output do IO.println line
  for line in r.errors do IO.eprintln line
  return r.status.toUInt32

end PolicyForge

open PolicyForge in
def main (arguments : List String) : IO UInt32 := do
  let environment ← environmentNow
  let value (name : String) := (environment.find? (·.1 == name)).map (·.2)
  match Invocation.ofArguments value arguments with
  | .build order =>
    let host ← hostFor order environment
    let (report, after) := Command.run arguments host
    putBack host.disk after.disk
    showReport report
  | _ =>
    let none : Host :=
      { disk := ⟨[]⟩, cwd := [], interrupt := .quiet, environment := environment
        execute := Script.run, network := .none, fresh := 0, compilations := 0 }
    showReport (Command.run arguments none).1
