import PolicyForge.Host.Path
/-!
# The disk

The disk is an association from locations to directories and files.  A location is the list of
names on the way from the root, so every file has exactly one; a path as written is resolved to a
location by walking it from the working directory.  All operations are total and say what went
wrong.

The disk has no links, so a location has one name and `..` goes back the way that was come.  Names
are texts.  The disk itself never fails: it is never full, whoever may write at a place may write all
of a file there, and what has been written needs no flushing.
-/
namespace PolicyForge

inductive IoError where
  | notFound
  | alreadyExists
  | notADirectory
  | isADirectory
  | invalidText
  | invalidFilename
  /-- A path holds the character that ends paths. -/
  | nulInPath
  | permissionDenied
  | corruptData
  | wrongChecksum
  deriving DecidableEq, Repr

def IoError.message : IoError → String
  | .notFound => "No such file or directory (os error 2)"
  | .alreadyExists => "File exists (os error 17)"
  | .notADirectory => "Not a directory (os error 20)"
  | .isADirectory => "Is a directory (os error 21)"
  | .invalidText => "stream did not contain valid UTF-8"
  | .invalidFilename => "File name too long (os error 36)"
  | .nulInPath => "file name contained an unexpected NUL byte"
  | .permissionDenied => "Permission denied (os error 13)"
  | .corruptData => "corrupt deflate stream"
  | .wrongChecksum => "Invalid checksum"

/-- The names on the way from the root. -/
abbrev Location := List String

inductive DiskNode where
  | directory
  | file (content : ByteArray) (executable : Bool)

def DiskNode.isFile : DiskNode → Bool
  | .file _ _ => true
  | .directory => false

def DiskNode.isDirectory : DiskNode → Bool
  | .directory => true
  | .file _ _ => false

structure Disk where
  entries : List (Location × DiskNode)

namespace Disk

/-! ## By location -/

def find (l : Location) : List (Location × DiskNode) → Option DiskNode
  | [] => none
  | (k, n) :: rest => if k = l then some n else find l rest

/-- The entries with a node at a location, in the place of the one that was there. -/
def put (l : Location) (n : DiskNode) : List (Location × DiskNode) → List (Location × DiskNode)
  | [] => [(l, n)]
  | (k, m) :: rest => if k = l then (k, n) :: rest else (k, m) :: put l n rest

/-- What is at a location; the root is a directory. -/
def node? (d : Disk) (l : Location) : Option DiskNode :=
  if l.isEmpty then some .directory else find l d.entries

def insert (d : Disk) (l : Location) (n : DiskNode) : Disk := ⟨put l n d.entries⟩

def erase (d : Disk) (l : Location) : Disk := ⟨d.entries.filter fun e => e.1 ≠ l⟩

/-- Everything at or below a location is gone. -/
def eraseTree (d : Disk) (l : Location) : Disk := ⟨d.entries.filter fun e => !l.isPrefixOf e.1⟩

/-- The names in a directory, in the order of the disk. -/
def children (d : Disk) (l : Location) : List (String × DiskNode) :=
  d.entries.filterMap fun e =>
    if e.1.length = l.length + 1 ∧ l.isPrefixOf e.1 then e.1.getLast?.map fun n => (n, e.2) else none

theorem find_put_self (l : Location) (n : DiskNode) : ∀ (es : List (Location × DiskNode)),
    find l (put l n es) = some n
  | [] => by simp [put, find]
  | (k, m) :: rest => by
    by_cases h : k = l
    · simp [put, find, h]
    · simp [put, find, h, find_put_self l n rest]

theorem find_put_of_ne {l l' : Location} (n : DiskNode) (h : l ≠ l') :
    ∀ (es : List (Location × DiskNode)), find l' (put l n es) = find l' es
  | [] => by simp [put, find, h]
  | (k, m) :: rest => by
    by_cases hk : k = l
    · subst hk
      simp [put, find, h]
    · simp only [put, if_neg hk, find]
      by_cases hk' : k = l'
      · simp [hk']
      · simp [hk', find_put_of_ne n h rest]

theorem find_filter_of_ne {l l' : Location} (h : l ≠ l') : ∀ (es : List (Location × DiskNode)),
    find l' (es.filter fun e => e.1 ≠ l) = find l' es
  | [] => rfl
  | (k, m) :: rest => by
    have ih := find_filter_of_ne h rest
    by_cases hk : k = l
    · subst hk
      rw [List.filter_cons_of_neg (by simp), ih, find, if_neg h]
    · rw [List.filter_cons_of_pos (by simpa using hk), find, find, ih]

theorem node?_insert_self (d : Disk) (l : Location) (n : DiskNode) (h : l ≠ []) :
    (d.insert l n).node? l = some n := by
  simp [node?, insert, h, find_put_self]

theorem node?_insert_of_ne (d : Disk) {l l' : Location} (n : DiskNode) (h : l ≠ l') :
    (d.insert l n).node? l' = d.node? l' := by
  simp [node?, insert, find_put_of_ne n h]

theorem node?_erase_of_ne (d : Disk) {l l' : Location} (h : l ≠ l') :
    (d.erase l).node? l' = d.node? l' := by
  unfold node? erase
  rw [find_filter_of_ne h]

/-! ## By path -/

/-- Where a path leads: the location of its last component, and whether the path asks for a
directory there. -/
structure Place where
  location : Location
  asDirectory : Bool
  deriving DecidableEq, Repr

/-- The longest name in bytes. -/
def maxName : Nat := 255

/-- Whether only empty pieces and dots are left. -/
def isTail (ps : List String) : Bool := ps.all fun p => p == "" || p == "."

/-- Whether only separators are left. -/
def isEnd (ps : List String) : Bool := ps.all (· == "")

def walk (d : Disk) : Location → List String → Except IoError Place
  | dir, [] => .ok ⟨dir, true⟩
  | dir, p :: rest =>
    if p == "" || p == "." then walk d dir rest
    else if p == ".." then walk d dir.dropLast rest
    else if maxName < p.utf8ByteSize then .error .invalidFilename
    else
      let next := dir ++ [p]
      if isTail rest then .ok ⟨next, !rest.isEmpty⟩
      else
        match d.node? next with
        | none => .error .notFound
        | some (.file _ _) => .error .notADirectory
        | some .directory => walk d next rest

def locate (d : Disk) (cwd : Location) (path : String) : Except IoError Place :=
  if path.toList.contains '\x00' then .error .nulInPath
  else if path.isEmpty then .error .notFound
  else walk d (if Path.isAbsolute path then [] else cwd) (Path.pieces path)

def stat (d : Disk) (cwd : Location) (path : String) : Except IoError DiskNode := do
  let p ← d.locate cwd path
  match d.node? p.location with
  | none => .error .notFound
  | some (.file c x) => if p.asDirectory then .error .notADirectory else .ok (.file c x)
  | some .directory => .ok .directory

def isFile (d : Disk) (cwd : Location) (path : String) : Bool :=
  match d.stat cwd path with
  | .ok n => n.isFile
  | .error _ => false

def isDirectory (d : Disk) (cwd : Location) (path : String) : Bool :=
  match d.stat cwd path with
  | .ok n => n.isDirectory
  | .error _ => false

def pathExists (d : Disk) (cwd : Location) (path : String) : Bool :=
  match d.stat cwd path with
  | .ok _ => true
  | .error _ => false

def readBytes (d : Disk) (cwd : Location) (path : String) : Except IoError ByteArray := do
  match ← d.stat cwd path with
  | .file c _ => .ok c
  | .directory => .error .isADirectory

def readText (d : Disk) (cwd : Location) (path : String) : Except IoError String := do
  match String.fromUTF8? (← d.readBytes cwd path) with
  | some s => .ok s
  | none => .error .invalidText

/-- The location at which a path lets a file be written. -/
def writable (d : Disk) (cwd : Location) (path : String) : Except IoError Location := do
  let p ← d.locate cwd path
  match d.node? p.location with
  | some .directory => .error .isADirectory
  | some (.file _ _) => if p.asDirectory then .error .notADirectory else .ok p.location
  | none =>
    if p.asDirectory then .error .isADirectory
    else
      -- The parent is a directory unless the walk ended at its first step below the start.
      match d.node? p.location.dropLast with
      | some .directory => .ok p.location
      | some (.file _ _) => .error .notADirectory
      | none => .error .notFound

/-- The disk with a file of the given content; a file that was there keeps its permission. -/
def store (d : Disk) (l : Location) (content : ByteArray) : Disk :=
  match d.node? l with
  | some (.file _ x) => d.insert l (.file content x)
  | _ => d.insert l (.file content false)

def writeBytes (d : Disk) (cwd : Location) (path : String) (content : ByteArray) :
    Except IoError Disk := do
  return d.store (← d.writable cwd path) content

/-- The disk with bytes after those of a file; there is nothing to write to once the file is gone. -/
def append (d : Disk) (cwd : Location) (path : String) (more : ByteArray) : Disk :=
  match d.locate cwd path with
  | .error _ => d
  | .ok p =>
    match d.node? p.location with
    | some (.file content x) => d.insert p.location (.file (content ++ more) x)
    | _ => d

/-- Walks the pieces of a path from a directory and makes every directory on the way that is not
there yet.  The last one is made by the path as it is written, and with a dot behind it that would be
a place below it.  What has been made stays even if the walk then fails. -/
def makeWalk (d : Disk) : Location → List String → Disk × Except IoError Unit
  | _, [] => (d, .ok ())
  | dir, p :: rest =>
    if p == "" || p == "." then makeWalk d dir rest
    else if p == ".." then makeWalk d dir.dropLast rest
    else if maxName < p.utf8ByteSize then (d, .error .invalidFilename)
    else
      let next := dir ++ [p]
      match d.node? next with
      | some .directory => makeWalk d next rest
      | some (.file _ _) =>
        (d, .error (if isEnd rest then .alreadyExists else .notADirectory))
      | none =>
        if isTail rest && !isEnd rest then (d, .error .notFound)
        else makeWalk (d.insert next .directory) next rest

/-- Makes a directory and those above it; one that is there already is left as it is. -/
def makeDirectories (d : Disk) (cwd : Location) (path : String) : Disk × Except IoError Unit :=
  if path.toList.contains '\x00' then (d, .error .nulInPath)
  else if path.isEmpty then (d, .ok ())
  else d.makeWalk (if Path.isAbsolute path then [] else cwd) (Path.pieces path)

/-- Makes a directory where there is nothing, in a directory that is there. -/
def makeDirectory (d : Disk) (cwd : Location) (path : String) : Except IoError Disk := do
  let p ← d.locate cwd path
  match d.node? p.location with
  | some _ => .error .alreadyExists
  | none =>
    match d.node? p.location.dropLast with
    | some .directory => .ok (d.insert p.location .directory)
    | some (.file _ _) => .error .notADirectory
    | none => .error .notFound

def removeTree (d : Disk) (cwd : Location) (path : String) : Disk :=
  match d.locate cwd path with
  | .ok p => d.eraseTree p.location
  | .error _ => d

def removeFile (d : Disk) (cwd : Location) (path : String) : Except IoError Disk := do
  let p ← d.locate cwd path
  match d.node? p.location with
  | none => .error .notFound
  | some .directory => .error .isADirectory
  | some (.file _ _) =>
    if p.asDirectory then .error .notADirectory else .ok (d.erase p.location)

def list (d : Disk) (cwd : Location) (path : String) :
    Except IoError (List (String × DiskNode)) := do
  let p ← d.locate cwd path
  match d.node? p.location with
  | none => .error .notFound
  | some (.file _ _) => .error .notADirectory
  | some .directory => .ok (d.children p.location)

/-- Moves a file to another path, in the place of a file that was there. -/
def rename (d : Disk) (cwd : Location) (source target : String) : Except IoError Disk := do
  let s ← d.locate cwd source
  match d.node? s.location with
  | none => .error .notFound
  | some .directory => .error .isADirectory
  | some n =>
    let t ← d.writable cwd target
    if s.location = t then .ok d else .ok ((d.insert t n).erase s.location)

end Disk

end PolicyForge
