import PolicyForge.Text.Ranges
import PolicyForge.Text.Category.NamePart
import PolicyForge.Text.Category.Alphanumeric
import PolicyForge.Text.Category.Digit
import PolicyForge.Text.Category.Hidden
/-!
# Classes of characters

Each class is decided by core's ASCII test below U+0080 and by a table above it.  The tables are those
of Unicode 15.0, so a character that a later version assigns is in no class but the last.
-/
namespace PolicyForge.Text

def isAscii (c : Char) : Bool := c.toNat < 0x80

def isAsciiLetter (c : Char) : Bool :=
  ('a' ≤ c && c ≤ 'z') || ('A' ≤ c && c ≤ 'Z')

def isAsciiDigit (c : Char) : Bool := '0' ≤ c && c ≤ '9'

/-- Letters and digits of ASCII, and the characters beyond it that may stand in a name. -/
def isNamePart (c : Char) : Bool :=
  if isAscii c then isAsciiLetter c || isAsciiDigit c else inRanges c namePartRanges

/-- Alphabetic and numeric characters. -/
def isAlphanumeric (c : Char) : Bool :=
  if isAscii c then isAsciiLetter c || isAsciiDigit c else inRanges c alphanumericRanges

/-- Decimal digits of every script. -/
def isDigit (c : Char) : Bool :=
  if isAscii c then isAsciiDigit c else inRanges c digitRanges

/-- Characters that a quoted text names by number. -/
def isHidden (c : Char) : Bool :=
  if isAscii c then c.toNat < 0x20 || c.toNat == 0x7F else inRanges c hiddenRanges

end PolicyForge.Text
