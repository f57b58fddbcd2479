import PolicyForge.Data.Json
/-!
# Data as it stands in a document

A tree is what a reader makes of a text before anyone has asked what the text should hold.  It
keeps the entries of a mapping in the order of the document, repeated names included, and it keeps
a `fault` where the text stops being well formed: whoever walks the tree in document order meets
first whatever is wrong first.  A part that is well formed but has no value is `unreadable`: that
matters only to whoever asks for its value.
-/
namespace PolicyForge.Data

/-- Why a well-formed part of a document has no value. -/
inductive Unreadable where
  /-- A number is beyond the largest. -/
  | tooLarge
  /-- A text holds half of a surrogate pair. -/
  | brokenPair
  /-- A node contains itself. -/
  | endless
  /-- A tag does not go with what it stands before. -/
  | misplacedTag
  deriving DecidableEq, Repr

inductive Tree where
  | null
  | bool (b : Bool)
  | int (i : Int)
  | float (bits : Nat)
  | string (s : String)
  /-- An unquoted scalar, whose type depends on what is expected of it. -/
  | plain (s : String)
  | sequence (items : List Tree)
  | mapping (entries : List (Tree × Tree))
  /-- A value with a tag of the document's own. -/
  | tagged (tag : String) (value : Tree)
  | unreadable (why : Unreadable)
  /-- The place where the text is malformed. -/
  | fault
  deriving Inhabited, Repr

namespace Tree

mutual

def ofJson : Json → Tree
  | .null => .null
  | .bool b => .bool b
  | .int i => .int i
  | .float bits => .float bits
  | .string s => .string s
  | .array items => .sequence (ofItems items)
  | .object fields => .mapping (ofFields fields)

def ofItems : List Json → List Tree
  | [] => []
  | j :: rest => ofJson j :: ofItems rest

def ofFields : List (String × Json) → List (Tree × Tree)
  | [] => []
  | (k, v) :: rest => (.string k, ofJson v) :: ofFields rest

end

mutual

/-- The JSON value of a tree, if the tree is one; of two fields with one name the later stands. -/
def toJson? : Tree → Option Json
  | .null => some .null
  | .bool b => some (.bool b)
  | .int i => some (.int i)
  | .float bits => some (.float bits)
  | .string s => some (.string s)
  | .sequence items => (toItems? items).map .array
  | .mapping entries => (toFields? entries).map Json.ofFields
  | .plain _ | .tagged _ _ | .unreadable _ | .fault => none

def toItems? : List Tree → Option (List Json)
  | [] => some []
  | t :: rest =>
    match toJson? t, toItems? rest with
    | some j, some js => some (j :: js)
    | _, _ => none

def toFields? : List (Tree × Tree) → Option (List (String × Json))
  | [] => some []
  | (.string k, v) :: rest =>
    match toJson? v, toFields? rest with
    | some j, some fs => some ((k, j) :: fs)
    | _, _ => none
  | _ :: _ => none

end

mutual

/-- Whether the text of a tree is malformed somewhere. -/
def hasFault : Tree → Bool
  | .fault => true
  | .sequence items => itemsFault items
  | .mapping entries => entriesFault entries
  | .tagged _ t => hasFault t
  | _ => false

def itemsFault : List Tree → Bool
  | [] => false
  | t :: rest => hasFault t || itemsFault rest

def entriesFault : List (Tree × Tree) → Bool
  | [] => false
  | (k, v) :: rest => hasFault k || hasFault v || entriesFault rest

end

mutual

/-- Whether a tree is well formed throughout and every part of it has a value. -/
def isReadable : Tree → Bool
  | .fault | .unreadable _ => false
  | .sequence items => itemsReadable items
  | .mapping entries => entriesReadable entries
  | .tagged _ t => isReadable t
  | _ => true

def itemsReadable : List Tree → Bool
  | [] => true
  | t :: rest => isReadable t && itemsReadable rest

def entriesReadable : List (Tree × Tree) → Bool
  | [] => true
  | (k, v) :: rest => isReadable k && isReadable v && entriesReadable rest

end

mutual

/-- The tree cut at a depth of `room` containers: the container that goes deeper is malformed. -/
def limitDepth (room : Nat) : Tree → Tree
  | .sequence items =>
    match room with
    | 0 => .fault
    | room + 1 => .sequence (limitItems room items)
  | .mapping entries =>
    match room with
    | 0 => .fault
    | room + 1 => .mapping (limitEntries room entries)
  | t => t

def limitItems (room : Nat) : List Tree → List Tree
  | [] => []
  | t :: rest => limitDepth room t :: limitItems room rest

def limitEntries (room : Nat) : List (Tree × Tree) → List (Tree × Tree)
  | [] => []
  | (k, v) :: rest => (k, limitDepth room v) :: limitEntries room rest

end

end Tree

end PolicyForge.Data
