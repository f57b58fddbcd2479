import PolicyForge.Text.Category
/-!
# Quoted text in messages

A message shows a text between double quotes.  NUL, tab, CR, LF, the backslash and the closing
quote are written with a backslash; a hidden character is written by its number in hexadecimal,
between braces.  Everything else stands for itself.
-/
namespace PolicyForge.Text

/-- The lower-case hexadecimal digits of `n`, most significant first. -/
def hexDigits (n : Nat) : List Char := Nat.toDigits 16 n

/-- One character of a text quoted with `quote`. -/
def quotedChar (quote c : Char) : List Char :=
  if c == '\x00' then ['\\', '0']
  else if c == '\t' then ['\\', 't']
  else if c == '\r' then ['\\', 'r']
  else if c == '\n' then ['\\', 'n']
  else if c == '\\' || c == quote then ['\\', c]
  else if isHidden c then "\\u\x7b".toList ++ hexDigits c.toNat ++ ['}']
  else [c]

def quoted (s : String) : String :=
  String.ofList ('"' :: s.toList.flatMap (quotedChar '"') ++ ['"'])

end PolicyForge.Text
