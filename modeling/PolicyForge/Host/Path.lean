import PolicyForge.Text.Lines
/-!
# Paths as text

A path is kept as it was written.  These functions read its last component and put paths together;
what a path leads to is decided by the disk.
-/
namespace PolicyForge.Path

def pieces (path : String) : List String :=
  (Text.splitOn (· == '/') path.toList).map String.ofList

def isAbsolute (path : String) : Bool :=
  match path.toList with
  | '/' :: _ => true
  | _ => false

def endsInSeparator (path : String) : Bool := path.toList.getLast? == some '/'

/-- A path relative to another: an absolute path stands for itself. -/
def join (base path : String) : String :=
  if isAbsolute path || base.isEmpty then path
  else if endsInSeparator base then base ++ path
  else base ++ "/" ++ path

/-- The last component of a path, if it names something. -/
def fileName (path : String) : Option String :=
  match (pieces path).reverse.dropWhile fun p => p == "" || p == "." with
  | [] => none
  | last :: _ => if last == ".." then none else some last

/-- What stands after the last dot of a name that has something before that dot. -/
def extensionOf (name : String) : Option String :=
  let after := name.toList.reverse.takeWhile (· != '.')
  match name.toList.reverse.dropWhile (· != '.') with
  | [] | [_] => none
  | _ :: _ :: _ => some (String.ofList after.reverse)

def extension (path : String) : Option String := (fileName path).bind extensionOf

end PolicyForge.Path
