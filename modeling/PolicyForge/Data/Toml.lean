import PolicyForge.Text.Lines
import PolicyForge.Data.Yaml.Plain
/-!
# Assignments in TOML

A settings file gives values to single names: texts, lists of texts and integers.  The reader
accepts exactly the TOML that does this and refuses everything else that TOML has, tables, dotted
names and other types of values, since no setting is of these.
-/
namespace PolicyForge.Data.Toml

inductive Value where
  | text (s : String)
  | texts (ss : List String)
  | integer (i : Int)
  deriving DecidableEq, Repr

abbrev Assignments := List (String × Value)

/-! ## Characters -/

/-- A character of a comment or a text: a tab, or anything that is no control character. -/
def isPrintable (c : Char) : Bool := c == '\t' || (0x20 ≤ c.toNat && c.toNat != 0x7F)

def isBlank (c : Char) : Bool := c == ' ' || c == '\t'

def isBareKey (c : Char) : Bool :=
  ('a' ≤ c && c ≤ 'z') || ('A' ≤ c && c ≤ 'Z') || ('0' ≤ c && c ≤ '9') || c == '_' || c == '-'

def skipBlanks (s : List Char) : List Char := s.dropWhile isBlank

/-- What follows the end of a line, if the line ends here. -/
def newline? : List Char → Option (List Char)
  | '\n' :: rest => some rest
  | '\r' :: '\n' :: rest => some rest
  | _ => none

/-- What follows a comment, up to the end of its line. -/
def skipComment : List Char → List Char
  | '#' :: rest => rest.dropWhile isPrintable
  | s => s

/-- What follows the line, if nothing but a comment is left on it. -/
def lineEnd? (s : List Char) : Option (List Char) :=
  match skipComment (skipBlanks s) with
  | [] => some []
  | s => newline? s

/-- Skips blanks, comments and line ends. -/
def skipLines (fuel : Nat) (s : List Char) : List Char :=
  match fuel with
  | 0 => s
  | fuel + 1 =>
    let s := skipComment (skipBlanks s)
    match newline? s with
    | some rest => skipLines fuel rest
    | none => s

/-! ## Texts -/

/-- The character after a backslash, by its letter. -/
def escaped? : Char → Option Char
  | 'b' => some '\x08'
  | 't' => some '\t'
  | 'n' => some '\n'
  | 'f' => some '\x0C'
  | 'r' => some '\r'
  | '"' => some '"'
  | '\\' => some '\\'
  | _ => none

/-- The character that digits in base sixteen number. -/
def numbered? (width : Nat) (s : List Char) : Option (Char × List Char) := do
  let digits := s.take width
  if digits.length < width then none
  else
    let n ← Yaml.natIn 16 digits
    if n.isValidChar then some (Char.ofNat n, s.drop width) else none

def escape? : List Char → Option (Char × List Char)
  | 'u' :: rest => numbered? 4 rest
  | 'U' :: rest => numbered? 8 rest
  | c :: rest => (escaped? c).map fun e => (e, rest)
  | [] => none

/-- The rest of a text on one line, with escapes or without. -/
def lineText (quote : Char) (fuel : Nat) (text : List Char) (s : List Char) :
    Option (List Char × List Char) :=
  match fuel, s with
  | fuel + 1, c :: rest =>
    if c == quote then some (text.reverse, rest)
    else if quote == '"' && c == '\\' then do
      let (e, rest) ← escape? rest
      lineText quote fuel (e :: text) rest
    else if isPrintable c then lineText quote fuel (c :: text) rest
    else none
  | _, _ => none

/-- The rest of a text over several lines, with escapes or without.  Up to two quotes may stand
right before the three that end it. -/
def longText (quote : Char) (fuel : Nat) (text : List Char) (s : List Char) :
    Option (List Char × List Char) :=
  match fuel, s with
  | fuel + 1, c :: rest =>
    if c == quote then
      let quotes := (s.takeWhile (· == quote)).length
      if quotes < 3 then longText quote fuel (List.replicate quotes quote ++ text) (s.drop quotes)
      else if quotes ≤ 5 then
        some ((List.replicate (quotes - 3) quote ++ text).reverse, s.drop quotes)
      else none
    else if quote == '"' && c == '\\' then
      match newline? (skipBlanks rest) with
      | some next => longText quote fuel text (next.dropWhile fun c => isBlank c || c == '\n')
      | none => do
        let (e, rest) ← escape? rest
        longText quote fuel (e :: text) rest
    else
      match newline? s with
      | some next => longText quote fuel ('\n' :: text) next
      | none => if isPrintable c then longText quote fuel (c :: text) rest else none
  | _, _ => none

/-- A text in quotes of either kind, on one line or on several. -/
def text? (s : List Char) : Option (String × List Char) :=
  let long (quote : Char) (rest : List Char) :=
    longText quote (rest.length + 1) [] ((newline? rest).getD rest)
  let found := match s with
    | '"' :: '"' :: '"' :: rest => long '"' rest
    | '\'' :: '\'' :: '\'' :: rest => long '\'' rest
    | '"' :: rest => lineText '"' (rest.length + 1) [] rest
    | '\'' :: rest => lineText '\'' (rest.length + 1) [] rest
    | _ => none
  found.map fun r => (String.ofList r.1, r.2)

/-! ## Integers -/

/-- Digits with single underscores between them. -/
def digits? (base : Nat) (s : List Char) : Option (List Char) :=
  let parts := Text.splitOn (· == '_') s
  if parts.all fun p => !p.isEmpty && p.all fun c => (Yaml.digitIn base c).isSome then
    some parts.flatten
  else none

/-- The natural number of digits in base ten, without a superfluous zero. -/
def decimal? (s : List Char) : Option Nat := do
  let ds ← digits? 10 s
  match ds with
  | '0' :: _ :: _ => none
  | ds => Yaml.natIn 10 ds

/-- The integer that a word spells, if it fits 64 bits. -/
def integer? (word : List Char) : Option Int := do
  let based (base : Nat) (rest : List Char) : Option Int := do
    return (← Yaml.natIn base (← digits? base rest) : Nat)
  let i ← match word with
    | '0' :: 'x' :: rest => based 16 rest
    | '0' :: 'o' :: rest => based 8 rest
    | '0' :: 'b' :: rest => based 2 rest
    | '+' :: rest => (decimal? rest).map Int.ofNat
    | '-' :: rest => (decimal? rest).map fun n => -(n : Int)
    | _ => (decimal? word).map Int.ofNat
  if -(Int.pow 2 63) ≤ i && i < Int.pow 2 63 then some i else none

/-! ## Assignments -/

/-- The texts of a list, after its bracket, and what follows the list. -/
def items (fuel : Nat) (s : List Char) : Option (List String × List Char) :=
  match fuel with
  | 0 => none
  | fuel + 1 =>
    match skipLines (s.length + 1) s with
    | ']' :: rest => some ([], rest)
    | s => do
      let (t, rest) ← text? s
      match skipLines (rest.length + 1) rest with
      | ',' :: rest =>
        let (ts, rest) ← items fuel rest
        return (t :: ts, rest)
      | ']' :: rest => return ([t], rest)
      | _ => none

def isWordEnd (c : Char) : Bool := isBlank c || c == '\n' || c == '\r' || c == '#'

def value? (s : List Char) : Option (Value × List Char) :=
  match s with
  | '[' :: rest => (items (rest.length + 1) rest).map fun r => (.texts r.1, r.2)
  | _ =>
    match text? s with
    | some (t, rest) => some (.text t, rest)
    | none =>
      let word := s.takeWhile fun c => !isWordEnd c
      (integer? word).map fun i => (.integer i, s.drop word.length)

/-- The name in front of an assignment, and what follows it. -/
def key? (s : List Char) : Option (String × List Char) :=
  match s with
  | '"' :: rest | '\'' :: rest =>
    (lineText (s.headD '"') (rest.length + 1) [] rest).map fun r => (String.ofList r.1, r.2)
  | _ =>
    let name := s.takeWhile isBareKey
    if name.isEmpty then none else some (String.ofList name, s.drop name.length)

def assignments (fuel : Nat) (found : Assignments) (s : List Char) : Option Assignments :=
  match fuel, skipLines (s.length + 1) s with
  | _, [] => some found
  | 0, _ => none
  | fuel + 1, s => do
    let (name, rest) ← key? s
    match skipBlanks rest with
    | '=' :: rest => do
      let (v, rest) ← value? (skipBlanks rest)
      let rest ← lineEnd? rest
      if found.any (·.1 == name) then none else assignments fuel (found ++ [(name, v)]) rest
    | _ => none

/-- The assignments of a text in order, a mark of the byte order in front of it aside. -/
def read (text : String) : Option Assignments :=
  let cs := match text.toList with
    | '\uFEFF' :: rest => rest
    | cs => cs
  assignments (cs.length + 1) [] cs

end PolicyForge.Data.Toml
