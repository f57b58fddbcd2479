import PolicyForge.Text.Quoted
/-!
# Made-up names

A made-up name is a number written as a universally unique identifier: hexadecimal digits in groups
of 8, 4, 4, 4 and 12.  Different numbers have different names.
-/
namespace PolicyForge

def paddedHex (width n : Nat) : List Char :=
  let digits := Text.hexDigits n
  List.replicate (width - digits.length) '0' ++ digits

/-- Digits in groups of the given sizes with hyphens between, the rest as the last group. -/
def grouped : List Nat → List Char → List Char
  | [], digits => digits
  | size :: sizes, digits => digits.take size ++ '-' :: grouped sizes (digits.drop size)

def identifierOf (n : Nat) : String := String.ofList (grouped [8, 4, 4, 4] (paddedHex 32 n))

end PolicyForge
