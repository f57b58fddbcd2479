import PolicyForge.Data.Tree
/-!
# Reading JSON text

Reading goes in two passes, each a machine stepped once per unit of its input: characters become
tokens, tokens become a tree.  Neither can fail.  Where the text is malformed the first pass writes
the token `bad` and the second leaves a fault in the tree and stops.  A number that is too large,
or a text with half of a surrogate pair, is well formed, and reading goes on after it.
-/
namespace PolicyForge.Data.Json

/-! ## Numbers -/

/-- The parts of a number as written. -/
structure Numeral where
  negative : Bool
  whole : List Char
  /-- Digits after the point; none without a point. -/
  places : List Char
  /-- Sign and digits of the power of ten. -/
  power : Option (Bool × List Char)
  deriving Repr

def digitValue (c : Char) : Nat := c.toNat - '0'.toNat

/-- The digits that a 64-bit word still takes, and how many are left over from the first that it
does not take. -/
def takeDigits (word : Nat) : List Char → Nat × Nat
  | [] => (word, 0)
  | c :: cs =>
    let next := word * 10 + digitValue c
    if next < UInt64.size then takeDigits next cs else (word, cs.length + 1)

/-- The nearest 64-bit number to a number `m * 2 ^ e` times or over `10 ^ power`. -/
def scaled (bits power : Nat) (up : Bool) : Nat :=
  let ten := Number.double.nearest (Nat.pow 10 power) 1
  match Number.double.read bits, Number.double.read ten with
  | .finite _ m e, .finite _ n f =>
    let (a, b) := Number.Format.quotient m e
    let (c, d) := Number.Format.quotient n f
    if up then Number.double.nearest (a * c) (b * d) else Number.double.nearest (a * d) (b * c)
  | _, _ => bits

/-- A word times a power of ten, each rounded to 64 bits before they are multiplied.  Powers below
`10 ^ -308` are reached in two steps; a number that is too large has no value. -/
def assemble (word : Nat) (power : Int) : Option Nat :=
  let start := Number.double.nearest word 1
  match power with
  | .ofNat k =>
    if k ≤ 308 then
      let bits := scaled start k true
      if bits == Number.double.infinity then none else some bits
    else if word == 0 then some 0
    else none
  | .negSucc k =>
    let k := k + 1
    if k ≤ 308 then some (scaled start k false)
    else
      let bits := scaled start 308 false
      if k ≤ 616 then some (if bits == 0 then 0 else scaled bits (k - 308) false)
      else some 0

/-- The number that a numeral with a point, a power or too many digits stands for. -/
def Numeral.float (n : Numeral) : Option Nat :=
  let (word, excess) := takeDigits 0 n.whole
  let (word, left) := takeDigits word n.places
  let power : Int := excess - (n.places.length - left : Nat)
  let magnitude :=
    match n.power with
    | none => assemble word power
    | some (down, digits) =>
      let e := digits.foldl (fun e c => e * 10 + digitValue c) 0
      if e < Nat.pow 2 31 then assemble word (if down then power - e else power + e)
      else if word == 0 || down then some 0
      else none
  magnitude.map fun bits => if n.negative then bits + Number.double.signBit else bits

/-- The value of a numeral: an integer of 64 bits where it is one, with `-0` a float. -/
def Numeral.tree (n : Numeral) : Tree :=
  let float := match n.float with
    | some bits => Tree.float bits
    | none => .unreadable .tooLarge
  match n.places, n.power with
  | [], none =>
    let i := n.whole.foldl (fun i c => i * 10 + digitValue c) 0
    if n.negative then
      if i == 0 || Int.pow 2 63 < i then float else .int (-i)
    else if i < Int.pow 2 64 then .int i
    else float
  | _, _ => float

/-! ## Tokens -/

inductive Token where
  | openArray
  | closeArray
  | openObject
  | closeObject
  | colon
  | comma
  | leaf (t : Tree)
  | bad
  deriving Repr

/-- How far a numeral has been read. -/
inductive Stage where
  | sign
  | zero
  | whole
  | point
  | places
  | mark
  | powerSign
  | power
  deriving DecidableEq, Repr

/-- Where the first pass stands between two characters. -/
inductive Mode where
  | between
  /-- In a string; the text so far, last character first, unless half a pair has spoilt it. -/
  | string (acc : Option (List Char))
  | escape (acc : Option (List Char))
  /-- After a backslash and `u`: the digits still owed, their value, and a leading half. -/
  | unicode (acc : Option (List Char)) (owed value : Nat) (high : Option Nat)
  /-- Between the halves of a pair, before the backslash and after it. -/
  | half (acc : List Char) (high : Nat) (slash : Bool)
  /-- In a word of which `rest` is still owed. -/
  | word (rest : List Char) (t : Tree)
  /-- In a numeral; its digits are held last first. -/
  | number (stage : Stage) (n : Numeral)
  | stopped
  deriving Repr

/-- Whether a numeral may end here. -/
def Stage.complete : Stage → Bool
  | .zero | .whole | .places | .power => true
  | _ => false

/-- The numeral with its digits in reading order. -/
def Numeral.finish (n : Numeral) : Numeral :=
  { n with whole := n.whole.reverse, places := n.places.reverse,
           power := n.power.map fun p => (p.1, p.2.reverse) }

/-- The numeral after one more character, if the character continues it. -/
def Numeral.step (n : Numeral) (stage : Stage) (c : Char) : Option (Option (Stage × Numeral)) :=
  let digit := Text.isAsciiDigit c
  match stage with
  | .sign =>
    if c == '0' then some (some (.zero, { n with whole := [c] }))
    else if digit then some (some (.whole, { n with whole := [c] }))
    else some none
  | .zero | .whole =>
    if digit then
      if stage == .zero then some none else some (some (.whole, { n with whole := c :: n.whole }))
    else if c == '.' then some (some (.point, n))
    else if c == 'e' || c == 'E' then some (some (.mark, { n with power := some (false, []) }))
    else none
  | .point =>
    if digit then some (some (.places, { n with places := [c] })) else some none
  | .places =>
    if digit then some (some (.places, { n with places := c :: n.places }))
    else if c == 'e' || c == 'E' then some (some (.mark, { n with power := some (false, []) }))
    else none
  | .mark =>
    if c == '+' then some (some (.powerSign, n))
    else if c == '-' then some (some (.powerSign, { n with power := some (true, []) }))
    else if digit then some (some (.power, { n with power := some (false, [c]) }))
    else some none
  | .powerSign =>
    if digit then some (some (.power, { n with power := n.power.map fun p => (p.1, [c]) }))
    else some none
  | .power =>
    if digit then some (some (.power, { n with power := n.power.map fun p => (p.1, c :: p.2) }))
    else none

def startToken (c : Char) : List Token × Mode :=
  match c with
  | ' ' | '\t' | '\n' | '\r' => ([], .between)
  | '[' => ([.openArray], .between)
  | ']' => ([.closeArray], .between)
  | '\x7b' => ([.openObject], .between)
  | '\x7d' => ([.closeObject], .between)
  | ':' => ([.colon], .between)
  | ',' => ([.comma], .between)
  | '"' => ([], .string (some []))
  | 't' => ([], .word "rue".toList (.bool true))
  | 'f' => ([], .word "alse".toList (.bool false))
  | 'n' => ([], .word "ull".toList .null)
  | '-' => ([], .number .sign ⟨true, [], [], none⟩)
  | '0' => ([], .number .zero ⟨false, [c], [], none⟩)
  | _ =>
    if Text.isAsciiDigit c then ([], .number .whole ⟨false, [c], [], none⟩)
    else ([.bad], .stopped)

def hexValue (c : Char) : Option Nat :=
  if Text.isAsciiDigit c then some (digitValue c)
  else if 'a' ≤ c && c ≤ 'f' then some (c.toNat - 'a'.toNat + 10)
  else if 'A' ≤ c && c ≤ 'F' then some (c.toNat - 'A'.toNat + 10)
  else none

/-- The mode after the last digit of an escaped code unit. -/
def afterUnit (acc : Option (List Char)) (unit : Nat) (high : Option Nat) : Mode :=
  let isLow := 0xDC00 ≤ unit && unit < 0xE000
  match acc, high with
  | none, _ => .string none
  | some acc, some h =>
    if isLow then
      .string (some (Char.ofNat (0x10000 + (h - 0xD800) * 0x400 + (unit - 0xDC00)) :: acc))
    else .string none
  | some acc, none =>
    if 0xD800 ≤ unit && unit < 0xDC00 then .half acc unit false
    else if isLow then .string none
    else .string (some (Char.ofNat unit :: acc))

def stringStep (acc : Option (List Char)) (c : Char) : List Token × Mode :=
  if c == '"' then
    match acc with
    | some cs => ([.leaf (.string (String.ofList cs.reverse))], .between)
    | none => ([.leaf (.unreadable .brokenPair)], .between)
  else if c == '\\' then ([], .escape acc)
  else if c.toNat < 0x20 then ([.bad], .stopped)
  else ([], .string (acc.map (c :: ·)))

/-- What a backslash and another character stand for. -/
def escaped : Char → Option Char
  | '"' => some '"'
  | '\\' => some '\\'
  | '/' => some '/'
  | 'b' => some '\x08'
  | 'f' => some '\x0C'
  | 'n' => some '\n'
  | 'r' => some '\r'
  | 't' => some '\t'
  | _ => none

/-- The character after a backslash in a string. -/
def escapeStep (acc : Option (List Char)) (c : Char) : List Token × Mode :=
  if c == 'u' then ([], .unicode acc 4 0 none)
  else
    match escaped c with
    | some e => ([], .string (acc.map (e :: ·)))
    | none => ([.bad], .stopped)

def scanStep (m : Mode) (c : Char) : List Token × Mode :=
  let stop : List Token × Mode := ([.bad], .stopped)
  match m with
  | .stopped => ([], .stopped)
  | .between => startToken c
  | .string acc => stringStep acc c
  | .escape acc => escapeStep acc c
  | .unicode acc owed value high =>
    match hexValue c with
    | none => stop
    | some d =>
      let value := value * 16 + d
      if owed ≤ 1 then ([], afterUnit acc value high)
      else ([], .unicode acc (owed - 1) value high)
  | .half acc high false => if c == '\\' then ([], .half acc high true) else stringStep none c
  | .half acc high true =>
    if c == 'u' then ([], .unicode (some acc) 4 0 (some high)) else escapeStep none c
  | .word [] _ => stop
  | .word [d] t => if c == d then ([.leaf t], .between) else stop
  | .word (d :: rest) t => if c == d then ([], .word rest t) else stop
  | .number stage n =>
    match n.step stage c with
    | some (some (stage, n)) => ([], .number stage n)
    | some none => stop
    | none =>
      let (tokens, next) := startToken c
      (.leaf n.finish.tree :: tokens, next)

def scan : Mode → List Char → List Token
  | .between, [] | .stopped, [] => []
  | .number stage n, [] => if stage.complete then [.leaf n.finish.tree] else [.bad]
  | _, [] => [.bad]
  | m, c :: cs =>
    let (tokens, next) := scanStep m c
    tokens ++ scan next cs

/-! ## Trees -/

/-- An open container; what it holds so far is last first. -/
inductive Frame where
  | array (done : List Tree)
  | object (done : List (Tree × Tree))
  /-- An object that waits for the value of a name. -/
  | field (done : List (Tree × Tree)) (key : Tree)

/-- What may come next. -/
inductive Expected where
  | value
  /-- A value, or the end of an array just opened. -/
  | first
  /-- A name, or the end of an object just opened. -/
  | firstKey
  | key
  | colon
  /-- A comma or the end of the container. -/
  | more
  deriving DecidableEq

/-- Ends every open container, the innermost with a fault. -/
def closeAll : List Frame → Tree → Tree
  | [], t => t
  | .array done :: rest, t => closeAll rest (.sequence (t :: done).reverse)
  | .object done :: rest, t => closeAll rest (.mapping ((t, .fault) :: done).reverse)
  | .field done key :: rest, t => closeAll rest (.mapping ((key, t) :: done).reverse)

/-- A complete value in its container. -/
def place (t : Tree) : List Frame → List Frame
  | .array done :: rest => .array (t :: done) :: rest
  | .field done key :: rest => .object ((key, t) :: done) :: rest
  | stack => stack

/-- What a text holds, and whether something stands after it. -/
structure Document where
  tree : Tree
  trailing : Bool

/-- The second pass: the tree of the tokens, and whether any are left. -/
def build : List Frame → Expected → List Token → Document
  | stack, _, [] => ⟨closeAll stack .fault, false⟩
  | stack, expected, token :: tokens =>
    let fault : Document := ⟨closeAll stack .fault, false⟩
    let finish (t : Tree) (outer : List Frame) : Document :=
      match outer with
      | [] => ⟨t, !tokens.isEmpty⟩
      | outer => build (place t outer) .more tokens
    match expected, token, stack with
    | .value, .openArray, _ | .first, .openArray, _ => build (.array [] :: stack) .first tokens
    | .value, .openObject, _ | .first, .openObject, _ =>
      build (.object [] :: stack) .firstKey tokens
    | .value, .leaf t, _ | .first, .leaf t, _ => finish t stack
    | .first, .closeArray, .array done :: outer | .more, .closeArray, .array done :: outer =>
      finish (.sequence done.reverse) outer
    | .more, .comma, .array done :: outer => build (.array done :: outer) .value tokens
    | .firstKey, .closeObject, .object done :: outer
    | .more, .closeObject, .object done :: outer => finish (.mapping done.reverse) outer
    | .more, .comma, .object done :: outer => build (.object done :: outer) .key tokens
    | .firstKey, .leaf (.string k), .object done :: outer
    | .key, .leaf (.string k), .object done :: outer =>
      build (.field done (.string k) :: outer) .colon tokens
    | .firstKey, .leaf (.unreadable .brokenPair), .object done :: outer
    | .key, .leaf (.unreadable .brokenPair), .object done :: outer =>
      build (.field done (.unreadable .brokenPair) :: outer) .colon tokens
    -- A name that is no string is kept, and the text ends at it.
    | .firstKey, .leaf t, .object done :: outer => ⟨closeAll (.field done t :: outer) .fault, false⟩
    | .firstKey, .openArray, .object done :: outer =>
      ⟨closeAll (.field done (.sequence []) :: outer) .fault, false⟩
    | .firstKey, .openObject, .object done :: outer =>
      ⟨closeAll (.field done (.mapping []) :: outer) .fault, false⟩
    | .colon, .colon, _ => build stack .value tokens
    | _, _, _ => fault

def read (s : String) : Document := build [] .value (scan .between s.toList)

/-- The value that a text spells, if it is well formed throughout. -/
def ofText? (s : String) : Option Json :=
  let d := read s
  if d.trailing then none else d.tree.toJson?

end PolicyForge.Data.Json
