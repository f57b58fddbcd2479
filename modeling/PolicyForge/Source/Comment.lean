import PolicyForge.Text.Lines
/-!
# Documentation comments

Free text goes into a comment one line at a time.  Everything that ends a line of source ends a
line of the comment, so no text gets out of it; the five characters that markup is made of are
written as entities.
-/
namespace PolicyForge.Source

/-- Characters that end a line of source. -/
def isLineBreak (c : Char) : Bool :=
  c == '\n' || c == '\r' || c == '\u0085' || c == '\u2028' || c == '\u2029'

/-- One character of a comment. -/
def encodeChar (c : Char) : List Char :=
  if c == '&' then "&amp;".toList
  else if c == '<' then "&lt;".toList
  else if c == '>' then "&gt;".toList
  else if c == '"' then "&quot;".toList
  else if c == '\'' then "&apos;".toList
  else [c]

def encodeLine (line : List Char) : List Char := line.flatMap encodeChar

/-- The text with every CR LF as one LF. -/
def unifyReturns : List Char → List Char
  | [] => []
  | '\r' :: '\n' :: s => '\n' :: unifyReturns s
  | c :: s => c :: unifyReturns s

def sourceLines (text : List Char) : List (List Char) :=
  Text.splitOn isLineBreak (unifyReturns text)

/-- What every line of a documentation comment starts with. -/
def docMarker : List Char := "/// ".toList

def docChars (text : List Char) : List Char :=
  Text.join ['\n'] ((sourceLines text).map fun line => docMarker ++ encodeLine line)

def docComment (text : String) : String := String.ofList (docChars text.toList)

@[simp] theorem toList_docComment (text : String) :
    (docComment text).toList = docChars text.toList := by
  simp [docComment]

end PolicyForge.Source
