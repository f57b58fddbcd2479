import PolicyForge.Host.Interrupt
import PolicyForge.Host.Network
import PolicyForge.Host.Program
/-!
# The host

Everything outside of a job that it reads or changes: the disk, the interrupt it watches, the
environment, the programs and the network.  A job is an `Act`: from a host it makes another host
and either a result or the reason why there is none, and what it had changed by then stays changed.
-/
namespace PolicyForge

structure Host where
  disk : Disk
  cwd : Location
  interrupt : Interrupt
  environment : List (String × String)
  /-- The home directory that the list of accounts gives the user. -/
  accountHome : Option String := none
  /-- What the programs on the disk do. -/
  execute : Interpreter
  network : Network
  /-- How many names have been made up so far. -/
  fresh : Nat
  /-- How often the placeholder of a compiler has been called. -/
  compilations : Nat

/-- A job with results in `α` that may fail with an `ε`. -/
abbrev Act (ε α : Type) := ExceptT ε (StateM Host) α

namespace Act

/-- The same job, with its failures told otherwise. -/
def mapError {ε ε' α : Type} (f : ε → ε') (a : Act ε α) : Act ε' α := fun h =>
  match a h with
  | (.ok r, h) => (.ok r, h)
  | (.error e, h) => (.error (f e), h)

/-- The same job, with its failures as results. -/
def attempt {ε ε' α : Type} (a : Act ε α) : Act ε' (Except ε α) := fun h =>
  let (result, h) := a h
  (.ok result, h)

/-- A result that has been found elsewhere. -/
def ofExcept {ε α : Type} (r : Except ε α) : Act ε α := fun h => (r, h)

def ask {ε α : Type} (f : Host → α) : Act ε α := fun h => (.ok (f h), h)

def update {ε : Type} (f : Host → Host) : Act ε Unit := fun h => (.ok (), f h)

/-- A look at the interrupt: whether it is set. -/
def look {ε : Type} : Act ε Bool := fun h =>
  (.ok h.interrupt.isSet, { h with interrupt := h.interrupt.afterLook })

/-- Goes on only if the interrupt is quiet. -/
def checkpoint {ε : Type} (cancelled : ε) : Act ε Unit := do
  if ← look then throw cancelled

/-- Something read off the disk, seen from the working directory. -/
def reading {ε α : Type} (wrap : IoError → ε) (f : Disk → Location → Except IoError α) : Act ε α :=
  fun h =>
    match f h.disk h.cwd with
    | .ok a => (.ok a, h)
    | .error e => (.error (wrap e), h)

def changing {ε : Type} (wrap : IoError → ε) (f : Disk → Location → Except IoError Disk) :
    Act ε Unit := fun h =>
  match f h.disk h.cwd with
  | .ok d => (.ok (), { h with disk := d })
  | .error e => (.error (wrap e), h)

def readBytes {ε : Type} (wrap : IoError → ε) (path : String) : Act ε ByteArray :=
  reading wrap fun d cwd => d.readBytes cwd path

def readText {ε : Type} (wrap : IoError → ε) (path : String) : Act ε String :=
  reading wrap fun d cwd => d.readText cwd path

def writeBytes {ε : Type} (wrap : IoError → ε) (path : String) (content : ByteArray) : Act ε Unit :=
  changing wrap fun d cwd => d.writeBytes cwd path content

def writeText {ε : Type} (wrap : IoError → ε) (path content : String) : Act ε Unit :=
  writeBytes wrap path content.toUTF8

/-- Writes bytes after those of a file that is being written. -/
def append {ε : Type} (path : String) (more : ByteArray) : Act ε Unit :=
  update fun h => { h with disk := h.disk.append h.cwd path more }

def rename {ε : Type} (wrap : IoError → ε) (source target : String) : Act ε Unit :=
  changing wrap fun d cwd => d.rename cwd source target

def makeDirectories {ε : Type} (wrap : IoError → ε) (path : String) : Act ε Unit := fun h =>
  match h.disk.makeDirectories h.cwd path with
  | (d, .ok ()) => (.ok (), { h with disk := d })
  | (d, .error e) => (.error (wrap e), { h with disk := d })

/-- Makes a directory in one that is there. -/
def makeDirectory {ε : Type} (wrap : IoError → ε) (path : String) : Act ε Unit :=
  changing wrap fun d cwd => d.makeDirectory cwd path

def removeTree {ε : Type} (path : String) : Act ε Unit :=
  update fun h => { h with disk := h.disk.removeTree h.cwd path }

def removeFile {ε : Type} (wrap : IoError → ε) (path : String) : Act ε Unit :=
  changing wrap fun d cwd => d.removeFile cwd path

/-- Removes a file if that can be done. -/
def removeQuietly {ε : Type} (path : String) : Act ε Unit := fun h =>
  match h.disk.removeFile h.cwd path with
  | .ok d => (.ok (), { h with disk := d })
  | .error _ => (.ok (), h)

def environmentValue? {ε : Type} (name : String) : Act ε (Option String) :=
  ask fun h => (h.environment.find? (·.1 == name)).map (·.2)

/-- A number that has not been given out before. -/
def freshNumber {ε : Type} : Act ε Nat := fun h => (.ok h.fresh, { h with fresh := h.fresh + 1 })

/-! ## Programs -/

/-- The script at a path, or why it cannot be run. -/
def programAt (h : Host) (path : String) : Except IoError String := do
  match ← h.disk.stat h.cwd path with
  | .directory => .error .permissionDenied
  | .file content executable =>
    if executable then .ok ((String.fromUTF8? content).getD "") else .error .permissionDenied

/-- The first program among some paths; a path that leads to nothing that can be run is passed
over. -/
def firstProgram (h : Host) (denied : Bool) : List String → Except IoError String
  | [] => .error (if denied then .permissionDenied else .notFound)
  | path :: rest =>
    match programAt h path with
    | .ok text => .ok text
    | .error .permissionDenied => firstProgram h true rest
    | .error _ => firstProgram h denied rest

/-- The program called `name`: the file at that path, or for a name without separators the first
in the directories that the environment lists. -/
def findProgram (h : Host) (name : String) : Except IoError String :=
  if name.toList.contains '/' then programAt h name
  else if name.isEmpty then .error .notFound
  else
    let dirs := ((h.environment.find? (·.1 == "PATH")).map (·.2)).getD "/bin:/usr/bin"
    firstProgram h false
      ((Text.splitOn (· == ':') dirs.toList).map fun dir => Path.join (String.ofList dir) name)

def run {ε : Type} (wrap : IoError → ε) (name : String) (arguments : List String) :
    Act ε Execution := fun h =>
  match findProgram h name with
  | .error e => (.error (wrap e), h)
  | .ok text =>
    let (execution, disk) := h.execute text arguments h.disk h.cwd
    (.ok execution, { h with disk := disk })

def request {ε : Type} (address : String) : Act ε Exchange := fun h =>
  (.ok (h.network.exchange address),
    { h with network := { h.network with requests := h.network.requests ++ [address] } })

end Act

end PolicyForge
