import PolicyForge.Number.Shortest
/-!
# Writing a number

The digits of a number are one thing, their spelling another.  `Style` holds the decisions of a
spelling, and the three styles of this library are its values.
-/
namespace PolicyForge.Number

/-- How a finite number is spelled. -/
structure Style where
  /-- The powers of ten of the first digit that are written without an exponent; none means all. -/
  positional : Option (Int × Int)
  /-- Whether a whole number ends in `.0`. -/
  wholeMark : Bool
  /-- Whether a positive exponent has a plus sign. -/
  plus : Bool
  /-- Which of two equally near shortest decimals is written. -/
  tie : Tie
  deriving Repr

/-- Source text: no exponent and no mark on whole numbers. -/
def sourceStyle : Style := ⟨none, false, false, .up⟩

/-- Data text: exponents outside `10 ^ -5` to `10 ^ 15`, with their sign. -/
def dataStyle : Style := ⟨some (-5, 15), true, true, .even⟩

/-- Message text: exponents outside `10 ^ -4` to `10 ^ 15`, without a plus sign. -/
def messageStyle : Style := ⟨some (-4, 15), true, false, .up⟩

/-- The digits without the zeros at their end, and how many zeros those were. -/
def dropZeros (cs : List Char) : List Char × Nat :=
  let kept := (cs.reverse.dropWhile (· == '0')).reverse
  (kept, cs.length - kept.length)

/-- The digits with the point after the first `point` of them, filled up with zeros. -/
def placePoint (cs : List Char) (point : Int) (wholeMark : Bool) : List Char :=
  match point with
  | .ofNat p =>
    if p == 0 then "0.".toList ++ cs
    else if cs.length ≤ p then
      cs ++ List.replicate (p - cs.length) '0' ++ if wholeMark then ".0".toList else []
    else cs.take p ++ ['.'] ++ cs.drop p
  | .negSucc p => "0.".toList ++ List.replicate (p + 1) '0' ++ cs

def withExponent (cs : List Char) (x : Int) (plus : Bool) : List Char :=
  let mantissa :=
    match cs with
    | [] => ['0']
    | [d] => [d]
    | d :: ds => d :: '.' :: ds
  mantissa ++ ['e'] ++ (if plus && 0 ≤ x then ['+'] else []) ++ (toString x).toList

def Style.decimal (s : Style) (d : ShortDecimal) : List Char :=
  let (cs, zeros) := dropZeros (Nat.toDigits 10 d.digits)
  let point : Int := cs.length + zeros + d.exponent
  let whole := placePoint cs point s.wholeMark
  match s.positional with
  | none => whole
  | some (lo, hi) =>
    let x := point - 1
    if lo ≤ x && x ≤ hi then whole else withExponent cs x s.plus

/-- A finite number in the given style; a zero keeps its sign. -/
def Style.finite (s : Style) (f : Format) (negative : Bool) (m : Nat) (e : Int) : List Char :=
  (if negative then ['-'] else []) ++
    if m == 0 then (if s.wholeMark then "0.0".toList else ['0'])
    else s.decimal (f.shortest s.tie m e)

/-- The text of a number; the three special values have names of their own. -/
def Style.text (s : Style) (f : Format) (bits : Nat) : String :=
  match f.read bits with
  | .nan => "NaN"
  | .infinite negative => if negative then "-inf" else "inf"
  | .finite negative m e => String.ofList (s.finite f negative m e)

end PolicyForge.Number
