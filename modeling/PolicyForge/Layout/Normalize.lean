import PolicyForge.Layout.Scan
import PolicyForge.Text.Blank
import PolicyForge.Text.Lines
/-!
# Normal layout

Source is laid out anew from its braces alone: four spaces for every open brace, directives at the
margin, no trailing blanks, at most one empty line in a row and none next to the inside of a brace.
Lines that start within a verbatim string or a block comment are not touched, because their blanks
belong to what is written there.
-/
namespace PolicyForge.Layout

/-- What is known before a line. -/
structure Progress where
  carry : Carry
  depth : Nat
  /-- Whether an empty line may have to be written before the next one. -/
  blankPending : Bool
  /-- Whether the last line opened a brace at its end. -/
  afterOpen : Bool
  any : Bool
  deriving DecidableEq, Repr

def Progress.start : Progress := ⟨.code, 0, false, false, false⟩

/-- A line without its CR, unless it ends within a verbatim string, where the CR counts. -/
def lineBody (carry : Carry) (line : List Char) : List Char :=
  match carry with
  | .verbatim => line
  | _ => Text.dropReturn line

/-- The closing braces that a line starts with, blanks between them allowed. -/
def leadingClosers : List Char → Nat
  | [] => 0
  | c :: s =>
    if c == '\x7d' then leadingClosers s + 1
    else if Text.isBlank c then leadingClosers s
    else 0

/-- The blanks in front of a line of the given depth. -/
def indentation (depth : Nat) : List Char := List.replicate (4 * depth) ' '

def startsWith (c : Char) (line : List Char) : Bool := line.head? == some c

def endsWith (c : Char) (line : List Char) : Bool := line.getLast? == some c

/-- The lines that are written for one line, and what is known after it. -/
def step (p : Progress) (line : List Char) : List (List Char) × Progress :=
  match p.carry with
  | .code =>
    let trimmed := Text.trim line
    if trimmed.isEmpty then ([], { p with blankPending := p.any })
    else
      let gap := if p.blankPending && !p.afterOpen && !startsWith '\x7d' trimmed then [[]] else []
      if startsWith '#' trimmed then
        (gap ++ [trimmed], ⟨.code, p.depth, false, false, true⟩)
      else
        let content := Text.trimStart line
        let lineEnd := scan .code p.depth content
        let body :=
          match lineEnd.carry with
          | .code => Text.trimEnd content
          | c => lineBody c content
        (gap ++ [indentation (p.depth - leadingClosers trimmed) ++ body],
          ⟨lineEnd.carry, lineEnd.depth, false, lineEnd.carry == .code && endsWith '\x7b' body,
            true⟩)
  | c =>
    let lineEnd := scan c p.depth line
    ([lineBody lineEnd.carry line],
      { p with carry := lineEnd.carry, depth := lineEnd.depth, afterOpen := false, any := true })

def layLines : Progress → List (List Char) → List (List Char)
  | _, [] => []
  | p, line :: rest =>
    let (written, p) := step p line
    written ++ layLines p rest

/-- The lines of a text; a line end at the end of the text starts no further line. -/
def sourceLines (text : List Char) : List (List Char) :=
  let pieces := Text.splitOn (· == '\n') text
  if pieces.getLast? == some [] then pieces.dropLast else pieces

/-- A text in normal layout. -/
def normalizeChars (text : List Char) : List Char :=
  Text.join ['\n'] (layLines .start (sourceLines text)) ++ ['\n']

def normalize (text : String) : String := String.ofList (normalizeChars text.toList)

@[simp] theorem toList_normalize (text : String) :
    (normalize text).toList = normalizeChars text.toList := by
  simp [normalize]

end PolicyForge.Layout
