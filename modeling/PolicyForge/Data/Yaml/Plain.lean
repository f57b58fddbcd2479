import PolicyForge.Data.Tree
/-!
# Unquoted scalars

An unquoted scalar of a YAML document has the type that its spelling suggests, unless something
else is asked of it: `5` is a number where a number is wanted or anything will do, and a text where
a text is wanted.
-/
namespace PolicyForge.Data.Yaml

def isNull (s : String) : Bool := s == "null" || s == "Null" || s == "NULL" || s == "~"

def bool? (s : String) : Option Bool :=
  if s == "true" || s == "True" || s == "TRUE" then some true
  else if s == "false" || s == "False" || s == "FALSE" then some false
  else none

/-- The value of a digit in any base up to sixteen. -/
def digitIn (base : Nat) (c : Char) : Option Nat :=
  let d :=
    if '0' ≤ c && c ≤ '9' then some (c.toNat - '0'.toNat)
    else if 'a' ≤ c && c ≤ 'f' then some (c.toNat - 'a'.toNat + 10)
    else if 'A' ≤ c && c ≤ 'F' then some (c.toNat - 'A'.toNat + 10)
    else none
  d.bind fun d => if d < base then some d else none

def natIn (base : Nat) : List Char → Option Nat
  | [] => none
  | cs => cs.foldlM (fun n c => (digitIn base c).map (n * base + ·)) 0

/-- Whether a text is digits with a superfluous zero in front. -/
def isZeroPadded (cs : List Char) : Bool :=
  let digits := match cs with
    | '-' :: rest | '+' :: rest => rest
    | _ => cs
  match digits with
  | '0' :: rest => !rest.isEmpty && rest.all (fun c => '0' ≤ c && c ≤ '9')
  | _ => false

/-- A number without sign after an optional base. -/
def natural? (cs : List Char) : Option Nat :=
  match cs with
  | '0' :: 'x' :: rest => natIn 16 rest
  | '0' :: 'o' :: rest => natIn 8 rest
  | '0' :: 'b' :: rest => natIn 2 rest
  | _ => natIn 10 cs

def int? (s : String) : Option Int :=
  let cs := s.toList
  if isZeroPadded cs then none
  else
    match cs with
    | '+' :: rest => (natural? rest).map Int.ofNat
    | '-' :: rest => (natural? rest).map fun n => -(n : Int)
    | _ => (natural? cs).map Int.ofNat

/-- The digits of a number without sign, and the power of ten that they are multiplied by. -/
def decimal? (cs : List Char) : Option (Nat × Int) := do
  let digit := fun c => decide ('0' ≤ c ∧ c ≤ '9')
  let whole := cs.takeWhile digit
  let rest := cs.dropWhile digit
  let (places, rest) := match rest with
    | '.' :: rest => (rest.takeWhile digit, rest.dropWhile digit)
    | _ => ([], rest)
  let power ← match rest with
    | [] => some 0
    | c :: rest =>
      if c == 'e' || c == 'E' then
        match rest with
        | '-' :: ds => (natIn 10 ds).map fun n => -(n : Int)
        | '+' :: ds => (natIn 10 ds).map Int.ofNat
        | ds => (natIn 10 ds).map Int.ofNat
      else none
  return (← natIn 10 (whole ++ places), power - places.length)

/-- The bits of the number nearest to `digits * 10 ^ power`, unless it is too large for any. -/
def nearest? (digits : Nat) (power : Int) : Option Nat :=
  let width := (Nat.toDigits 10 digits).length + power
  if digits == 0 || width < -400 then some 0
  else if 400 < width then none
  else
    let bits :=
      match power with
      | .ofNat k => Number.double.nearest (digits * Nat.pow 10 k) 1
      | .negSucc k => Number.double.nearest digits (Nat.pow 10 (k + 1))
    if bits == Number.double.infinity then none else some bits

def float? (s : String) : Option Nat :=
  if [".inf", ".Inf", ".INF", "+.inf", "+.Inf", "+.INF"].contains s then some Number.double.infinity
  else if ["-.inf", "-.Inf", "-.INF"].contains s then
    some (Number.double.infinity + Number.double.signBit)
  else if [".nan", ".NaN", ".NAN"].contains s then some Number.double.quietNan
  else do
    let (negative, cs) := match s.toList with
      | '-' :: rest => (true, rest)
      | '+' :: rest => (false, rest)
      | cs => (false, cs)
    let (digits, power) ← decimal? cs
    let bits ← nearest? digits power
    return if negative then bits + Number.double.signBit else bits

/-- The value of an unquoted scalar where anything will do.  Integers beyond 64 bits have no place
in a value. -/
def resolve (s : String) : Tree :=
  if s.isEmpty || isNull s then .null
  else
    match bool? s with
    | some b => .bool b
    | none =>
      match int? s with
      | some i =>
        if -(Int.pow 2 63) ≤ i && i < Int.pow 2 64 then .int i
        else if -(Int.pow 2 127) ≤ i && i < Int.pow 2 128 then .unreadable .tooLarge
        else ((float? s).map Tree.float).getD (.string s)
      | none =>
        if isZeroPadded s.toList then .string s else ((float? s).map Tree.float).getD (.string s)

/-- A scalar with one of the tags that every document knows. -/
def resolveTagged (tag s : String) : Tree :=
  let wrong : Tree := .unreadable .misplacedTag
  if tag == "tag:yaml.org,2002:bool" then ((bool? s).map Tree.bool).getD wrong
  else if tag == "tag:yaml.org,2002:int" then
    match resolve s with
    | .int i => .int i
    | _ => wrong
  else if tag == "tag:yaml.org,2002:float" then
    ((float? s).map Tree.float).getD wrong
  else if tag == "tag:yaml.org,2002:null" then if isNull s then .null else wrong
  else .string s

mutual

/-- The tree with every unquoted scalar resolved; a tag of the document's own has no place in it. -/
def settle : Tree → Tree
  | .plain s => resolve s
  | .tagged tag t =>
    if tag.startsWith "!" then .unreadable .misplacedTag
    else
      match t with
      | .plain s => resolveTagged tag s
      | .string s => resolveTagged tag s
      | t => settle t
  | .sequence items => .sequence (settleItems items)
  | .mapping entries => .mapping (settleEntries entries)
  | t => t

def settleItems : List Tree → List Tree
  | [] => []
  | t :: rest => settle t :: settleItems rest

def settleEntries : List (Tree × Tree) → List (Tree × Tree)
  | [] => []
  | (k, v) :: rest => (settle k, settle v) :: settleEntries rest

end

end PolicyForge.Data.Yaml
