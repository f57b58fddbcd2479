/-!
# Scanning a line of source

The scan follows strings, characters and comments through one line, so that it knows which braces
are code.  Between lines only three things can be open: nothing, a block comment, or a verbatim
string.  Everything else ends where its line ends.
-/
namespace PolicyForge.Layout

/-- What is open where a line starts. -/
inductive Carry where
  | code
  | blockComment
  | verbatim
  deriving DecidableEq, Repr

/-- What is open within a line: also a plain string or a character, by its quote. -/
inductive Inside where
  | carried (c : Carry)
  | quoted (quote : Char)
  deriving DecidableEq, Repr

/-- What is open at the end of a line, and the depth of braces there. -/
structure LineEnd where
  carry : Carry
  depth : Nat
  deriving DecidableEq, Repr

/-- Scans the rest of a line.  A line comment ends the scan; a backslash in a quoted literal takes
the character after it along. -/
def scanFrom : Inside → Nat → List Char → LineEnd
  | .carried c, depth, [] => ⟨c, depth⟩
  | .quoted _, depth, [] => ⟨.code, depth⟩
  | .carried .blockComment, depth, '*' :: '/' :: s => scanFrom (.carried .code) depth s
  | .carried .blockComment, depth, _ :: s => scanFrom (.carried .blockComment) depth s
  | .carried .verbatim, depth, '"' :: '"' :: s => scanFrom (.carried .verbatim) depth s
  | .carried .verbatim, depth, '"' :: s => scanFrom (.carried .code) depth s
  | .carried .verbatim, depth, _ :: s => scanFrom (.carried .verbatim) depth s
  | .carried .code, depth, '/' :: '/' :: _ => ⟨.code, depth⟩
  | .carried .code, depth, '/' :: '*' :: s => scanFrom (.carried .blockComment) depth s
  | .carried .code, depth, '@' :: '"' :: s => scanFrom (.carried .verbatim) depth s
  | .carried .code, depth, '@' :: '$' :: '"' :: s => scanFrom (.carried .verbatim) depth s
  | .carried .code, depth, '$' :: '@' :: '"' :: s => scanFrom (.carried .verbatim) depth s
  | .carried .code, depth, c :: s =>
    if c == '"' || c == '\'' then scanFrom (.quoted c) depth s
    else if c == '\x7b' then scanFrom (.carried .code) (depth + 1) s
    else if c == '\x7d' then scanFrom (.carried .code) (depth - 1) s
    else scanFrom (.carried .code) depth s
  | .quoted _, depth, ['\\'] => ⟨.code, depth⟩
  | .quoted q, depth, '\\' :: _ :: s => scanFrom (.quoted q) depth s
  | .quoted q, depth, c :: s =>
    if c == q then scanFrom (.carried .code) depth s else scanFrom (.quoted q) depth s

/-- Scans a line from what is open at its start. -/
def scan (carry : Carry) (depth : Nat) (line : List Char) : LineEnd :=
  scanFrom (.carried carry) depth line

end PolicyForge.Layout
