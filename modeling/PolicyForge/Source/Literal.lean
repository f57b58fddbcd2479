import PolicyForge.Policy.Value
import PolicyForge.Source.Name
/-!
# Literals

The source text of a value.  Strings are verbatim strings, in which a quote is written twice and
everything else stands for itself, line ends included.
-/
namespace PolicyForge.Source

def doubleQuotes : List Char → List Char
  | [] => []
  | c :: s => if c == '"' then '"' :: '"' :: doubleQuotes s else c :: doubleQuotes s

def verbatimChars (s : List Char) : List Char := '@' :: '"' :: doubleQuotes s ++ ['"']

def verbatim (s : String) : String := String.ofList (verbatimChars s.toList)

@[simp] theorem toList_verbatim (s : String) : (verbatim s).toList = verbatimChars s.toList := by
  simp [verbatim]

/-- A character literal: the character itself if it is a letter or a digit, else its number as
four hexadecimal digits. -/
def charLiteral (unit : UInt16) : String :=
  let n := unit.toNat
  let surrogate := 0xD800 ≤ n && n < 0xE000
  let c := Char.ofNat n
  if !surrogate && Text.isAlphanumeric c then String.ofList ['\'', c, '\'']
  else
    let digits := Text.hexDigits n
    String.ofList
      (['\'', '\\', 'u'] ++ List.replicate (4 - digits.length) '0' ++ digits ++ ['\''])

/-- A floating-point literal; a value that is no number is named. -/
def floatLiteral (f : Number.Format) (typeName suffix : String) (bits : Nat) : String :=
  match f.read bits with
  | .nan => typeName ++ ".NaN"
  | .infinite false => typeName ++ ".PositiveInfinity"
  | .infinite true => typeName ++ ".NegativeInfinity"
  | .finite negative m e => String.ofList (Number.sourceStyle.finite f negative m e) ++ suffix

/-- The source text of a value. -/
def literal : Literal → String
  | .bool b => toString b
  | .char unit => charLiteral unit
  | .int i => toString i
  | .u32 n => toString n.toNat ++ "u"
  | .u64 n => toString n.toNat ++ "uL"
  | .f32 bits => floatLiteral Number.single "float" "f" bits.toNat
  | .f64 bits => floatLiteral Number.double "double" "d" bits.toNat
  | .decimal d => d.text ++ "m"
  | .string s => verbatim s
  | .enum type member => typeName type ++ "." ++ memberName member
  | .delete => "null"

end PolicyForge.Source
