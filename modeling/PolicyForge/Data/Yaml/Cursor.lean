/-!
# Cursors over a YAML text

A cursor is what is left of a text, with its place: how many characters came before, and on which
line and in which column it stands.  A line ends with CR, LF, both together, or one of three line
separators of Unicode.
-/
namespace PolicyForge.Data.Yaml

def isBlank (c : Char) : Bool := c == ' ' || c == '\t'

def isBreak (c : Char) : Bool :=
  c == '\n' || c == '\r' || c == '\u0085' || c == '\u2028' || c == '\u2029'

/-- A character of the names in a document. -/
def isWord (c : Char) : Bool :=
  ('a' ≤ c && c ≤ 'z') || ('A' ≤ c && c ≤ 'Z') || ('0' ≤ c && c ≤ '9') || c == '_' || c == '-'

/-- The characters that a document may hold. -/
def isAllowed (c : Char) : Bool :=
  let n := c.toNat
  n == 0x09 || n == 0x0A || n == 0x0D || (0x20 ≤ n && n ≤ 0x7E) || n == 0x85 ||
    (0xA0 ≤ n && n ≤ 0xFFFD) || 0x10000 ≤ n

structure Cursor where
  rest : List Char
  index : Nat
  line : Nat
  column : Nat
  deriving Repr

namespace Cursor

/-- The start of a text.  A byte order mark there is no part of the document, but it takes up the
first column of its line. -/
def start : List Char → Cursor
  | '\uFEFF' :: text => ⟨text, 1, 0, 1⟩
  | text => ⟨text, 0, 0, 0⟩

def head? (c : Cursor) : Option Char := c.rest.head?

def peek? (c : Cursor) (n : Nat) : Option Char := c.rest[n]?

def skip (n : Nat) (c : Cursor) : Cursor :=
  { c with rest := c.rest.drop n, index := c.index + n, column := c.column + n }

/-- The characters of a line from here on that satisfy `p`, and the cursor after them. -/
def span (p : Char → Bool) (c : Cursor) : List Char × Cursor :=
  let taken := c.rest.takeWhile p
  (taken, c.skip taken.length)

/-- Whether the line, or the text, ends at an optional character. -/
def isEnd : Option Char → Bool
  | none => true
  | some ch => isBreak ch

/-- Whether an optional character is blank, a break, or the end of the text. -/
def isGap : Option Char → Bool
  | none => true
  | some ch => isBlank ch || isBreak ch

/-- What a break stands for in a scalar, and the cursor on the next line; nothing where there is no
break. -/
def lineBreak (c : Cursor) : List Char × Cursor :=
  let next (n : Nat) (rest : List Char) : Cursor := ⟨rest, c.index + n, c.line + 1, 0⟩
  match c.rest with
  | '\r' :: '\n' :: rest => (['\n'], next 2 rest)
  | ch :: rest =>
    if ch == '\n' || ch == '\r' || ch == '\u0085' then (['\n'], next 1 rest)
    else if isBreak ch then ([ch], next 1 rest)
    else ([], c)
  | [] => ([], c)

/-- Whether a line starts here with a mark between documents: three times `mark`, then a gap. -/
def isDocumentMark (mark : Char) (c : Cursor) : Bool :=
  c.column == 0 && c.peek? 0 == some mark && c.peek? 1 == some mark && c.peek? 2 == some mark &&
    isGap (c.peek? 3)

/-- Whether a line starts here with either mark between documents. -/
def atDocumentMark (c : Cursor) : Bool := c.isDocumentMark '-' || c.isDocumentMark '.'

end Cursor

end PolicyForge.Data.Yaml
