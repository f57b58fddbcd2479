import PolicyForge.Data.Yaml.Scalar
/-!
# Tokens of a YAML text

Indentation becomes tokens that open and close blocks.  A key is recognised by the `:` behind it,
so a place at which a key may have started is kept until it is known; then the tokens that announce
the key are put where it started.  Inside brackets indentation does not count.
-/
namespace PolicyForge.Data.Yaml

inductive Token where
  | version (major minor : Nat)
  | handle (name stem : String)
  | documentStart
  | documentEnd
  | blockSequence
  | blockMapping
  | blockEnd
  | sequenceOpen
  | sequenceClose
  | mappingOpen
  | mappingClose
  | item
  | comma
  | key
  | value
  | alias (name : String)
  | anchor (name : String)
  | tag (handle suffix : String)
  | scalar (text : String) (plain : Bool)
  deriving DecidableEq, Repr

/-- A place at which a key may have started. -/
structure Candidate where
  /-- Whether nothing but a key can be there. -/
  required : Bool
  place : Nat
  index : Nat
  line : Nat
  column : Nat
  deriving Repr

structure Scanner where
  cursor : Cursor
  tokens : List Token
  /-- The indentation of the innermost block, below zero outside of all. -/
  indent : Int
  outer : List Int
  keyAllowed : Bool
  /-- The candidate of every open bracket, innermost first, and last the one outside of all. -/
  candidates : List (Option Candidate)

namespace Scanner

def start (text : List Char) : Scanner := ⟨.start text, [], -1, [], true, [none]⟩

def inFlow (s : Scanner) : Bool := 1 < s.candidates.length

def emit (t : Token) (s : Scanner) : Scanner := { s with tokens := s.tokens ++ [t] }

/-- The scanner with a token before the one at a place. -/
def insert (place : Nat) (t : Token) (s : Scanner) : Scanner :=
  { s with tokens := s.tokens.take place ++ t :: s.tokens.drop place }

def at_ (c : Cursor) (s : Scanner) : Scanner := { s with cursor := c }

def skip (n : Nat) (s : Scanner) : Scanner := { s with cursor := s.cursor.skip n }

def allowKey (b : Bool) (s : Scanner) : Scanner := { s with keyAllowed := b }

/-! ## Indentation -/

/-- Closes the blocks that are indented more than a column. -/
def closeTo (column : Int) (fuel : Nat) (s : Scanner) : Scanner :=
  match fuel, s.outer with
  | fuel + 1, i :: rest =>
    if column < s.indent then
      closeTo column fuel { s with tokens := s.tokens ++ [.blockEnd], indent := i, outer := rest }
    else s
  | _, _ => s

/-- Closes the blocks that are indented more than a column, unless brackets are open. -/
def unroll (column : Int) (s : Scanner) : Scanner :=
  if s.inFlow then s else s.closeTo column s.outer.length

/-- Opens a block at a column that is deeper than the innermost one, with its token at a place. -/
def roll (column place : Nat) (t : Token) (s : Scanner) : Scanner :=
  if s.inFlow || column ≤ s.indent then s
  else { s.insert place t with indent := column, outer := s.indent :: s.outer }

/-! ## Candidates -/

def candidate? (s : Scanner) : Option Candidate := s.candidates.head?.join

def setCandidate (k : Option Candidate) (s : Scanner) : Scanner :=
  { s with candidates := k :: s.candidates.tail }

/-- Forgets the innermost candidate; a required one cannot be forgotten. -/
def dropCandidate (s : Scanner) : Option Scanner :=
  if (s.candidate?.map Candidate.required).getD false then none else some (s.setCandidate none)

/-- Keeps this place as a candidate where a key may start. -/
def saveCandidate (s : Scanner) : Option Scanner :=
  if s.keyAllowed then do
    let s ← s.dropCandidate
    let c := s.cursor
    return s.setCandidate (some
      { required := !s.inFlow && s.indent == c.column
        place := s.tokens.length
        index := c.index
        line := c.line
        column := c.column })
  else some s

def longestKey : Nat := 1024

/-- Whether a candidate can still be a key: on this line and not too far back. -/
def isStale (c : Cursor) (k : Candidate) : Bool :=
  k.line < c.line || k.index + longestKey < c.index

def dropStale (s : Scanner) : Option Scanner :=
  let stale := fun k => isStale s.cursor k
  if s.candidates.any fun k => k.any fun k => stale k && k.required then none
  else some { s with candidates := s.candidates.map fun k => k.filter fun k => !stale k }

/-! ## Between tokens -/

/-- Skips blanks, comments and breaks.  A tab in front of a token counts as a blank only where no
key may start. -/
def toNext (fuel : Nat) (s : Scanner) : Scanner :=
  match fuel with
  | 0 => s
  | fuel + 1 =>
    let tabs := s.inFlow || !s.keyAllowed
    let c := (s.cursor.span fun ch => ch == ' ' || (tabs && ch == '\t')).2
    let c := if c.head? == some '#' then (c.span fun ch => !isBreak ch).2 else c
    if c.head?.any isBreak then
      toNext fuel { s with cursor := c.lineBreak.2, keyAllowed := s.keyAllowed || !s.inFlow }
    else s.at_ c

/-! ## Directives, anchors and tags -/

def versionNumber (c : Cursor) : Option (Nat × Cursor) := do
  let (digits, c) := c.span fun ch => '0' ≤ ch && ch ≤ '9'
  if 9 < digits.length then none else return (← natIn 10 digits, c)

/-- The bytes that escapes by number spell, and the cursor after them. -/
def escapedBytes (c : Cursor) (fuel : Nat) : Option (List UInt8 × Cursor) :=
  match fuel, c.rest with
  | fuel + 1, '%' :: a :: b :: _ => do
    let n ← natIn 16 [a, b]
    let (more, c) ← escapedBytes (c.skip 3) fuel
    return (n.toUInt8 :: more, c)
  | _, '%' :: _ => none
  | _, _ => some ([], c)

def isAddress (verbatim : Bool) (c : Char) : Bool :=
  isWord c || ";/?:@&=+$.!~*'()".toList.contains c || (verbatim && (c == ',' || c == '[' || c == ']'))

/-- The rest of a tag or of what a handle stands for. -/
def address (verbatim : Bool) (fuel : Nat) (text : List Char) (c : Cursor) :
    Option (List Char × Cursor) :=
  match fuel with
  | 0 => none
  | fuel + 1 =>
    match c.head? with
    | none => some (text, c)
    | some ch =>
      if ch == '%' then do
        let (bytes, c) ← escapedBytes c c.rest.length
        let s ← String.fromUTF8? ⟨bytes.toArray⟩
        address verbatim fuel (text ++ s.toList) c
      else if isAddress verbatim ch then address verbatim fuel (text ++ [ch]) (c.skip 1)
      else some (text, c)

/-- A handle: `!`, then perhaps a name and another `!`. -/
def tagHandle (c : Cursor) : Option (List Char × Cursor) :=
  if c.head? != some '!' then none
  else
    let (name, c) := (c.skip 1).span isWord
    if c.head? == some '!' then some ('!' :: name ++ ['!'], c.skip 1) else some ('!' :: name, c)

/-- Whether a text is a handle with a name of its own or the one without. -/
def isFullHandle (h : List Char) : Bool := 2 ≤ h.length && h.getLast? == some '!'

def directive (c : Cursor) : Option (Token × Cursor) := do
  let (name, c) := (c.skip 1).span isWord
  if name.isEmpty || !Cursor.isGap c.head? then none
  else
    let c := (c.span isBlank).2
    let (token, c) ← match String.ofList name with
      | "YAML" => do
        let (major, c) ← versionNumber c
        if c.head? != some '.' then none
        else
          let (minor, c) ← versionNumber (c.skip 1)
          some (Token.version major minor, c)
      | "TAG" => do
        let (h, c) ← tagHandle c
        if !(isFullHandle h || h == ['!']) || !c.head?.any isBlank then none
        else
          let c := (c.span isBlank).2
          let (stem, c) ← address true (c.rest.length + 1) [] c
          if stem.isEmpty || !Cursor.isGap c.head? then none
          else some (Token.handle (String.ofList h) (String.ofList stem), c)
      | _ => none
    let c := (c.span isBlank).2
    let c := if c.head? == some '#' then (c.span fun ch => !isBreak ch).2 else c
    if Cursor.isEnd c.head? then return (token, c.lineBreak.2) else none

/-- The name after the mark of an anchor or an alias. -/
def reference (c : Cursor) : Option (String × Cursor) :=
  let (name, c) := (c.skip 1).span isWord
  let ends := Cursor.isGap c.head? || c.head?.any fun ch => "?:,]\x7d%@`".toList.contains ch
  if name.isEmpty || !ends then none else some (String.ofList name, c)

/-- A tag: its handle and what follows that. -/
def tag (inFlow : Bool) (c : Cursor) : Option (Token × Cursor) := do
  let (token, c) ←
    if c.peek? 1 == some '<' then do
      let (uri, c) ← address true (c.rest.length + 1) [] (c.skip 2)
      if uri.isEmpty || c.head? != some '>' then none
      else some (Token.tag "" (String.ofList uri), c.skip 1)
    else do
      let (h, c) ← tagHandle c
      if isFullHandle h then
        let (suffix, c) ← address false (c.rest.length + 1) [] c
        if suffix.isEmpty then none
        else some (Token.tag (String.ofList h) (String.ofList suffix), c)
      else
        let (suffix, c) ← address false (c.rest.length + 1) h.tail c
        if suffix.isEmpty then some (Token.tag "" "!", c)
        else some (Token.tag "!" (String.ofList suffix), c)
  if Cursor.isGap c.head? || (inFlow && c.head? == some ',') then some (token, c) else none

/-! ## One token -/

def opening (t : Token) (s : Scanner) : Option Scanner := do
  let s ← s.saveCandidate
  return ({ s with candidates := none :: s.candidates, keyAllowed := true }.skip 1).emit t

def closing (t : Token) (s : Scanner) : Option Scanner := do
  let s ← s.dropCandidate
  let s := if s.inFlow then { s with candidates := s.candidates.tail } else s
  return ((s.allowKey false).skip 1).emit t

def documentMark (t : Token) (s : Scanner) : Option Scanner := do
  let s ← (s.unroll (-1)).dropCandidate
  return ((s.allowKey false).skip 3).emit t

def blockItem (s : Scanner) : Option Scanner := do
  if !s.inFlow && !s.keyAllowed then none
  else
    let s := s.roll s.cursor.column s.tokens.length .blockSequence
    let s ← s.dropCandidate
    return ((s.allowKey true).skip 1).emit .item

def keyMark (s : Scanner) : Option Scanner := do
  if !s.inFlow && !s.keyAllowed then none
  else
    let s := s.roll s.cursor.column s.tokens.length .blockMapping
    let s ← s.dropCandidate
    return ((s.allowKey !s.inFlow).skip 1).emit .key

/-- The mark of a value: behind a candidate it makes that a key. -/
def valueMark (s : Scanner) : Option Scanner :=
  match s.candidate? with
  | some k =>
    let s := (s.insert k.place .key).roll k.column k.place .blockMapping
    some ((((s.setCandidate none).allowKey false).skip 1).emit .value)
  | none =>
    if !s.inFlow && !s.keyAllowed then none
    else
      let s := s.roll s.cursor.column s.tokens.length .blockMapping
      some (((s.allowKey !s.inFlow).skip 1).emit .value)

/-- Something that may be a key: `read` gives its token and the cursor after it. -/
def keyable (read : Cursor → Option (Token × Cursor)) (s : Scanner) : Option Scanner := do
  let s ← s.saveCandidate
  let (t, c) ← read s.cursor
  return ((s.allowKey false).at_ c).emit t

def plain (s : Scanner) : Option Scanner := do
  let s ← s.saveCandidate
  let (text, broken, c) ← plainScalar s.inFlow s.indent s.cursor
  return ((s.allowKey broken).at_ c).emit (.scalar text true)

def block (literal : Bool) (s : Scanner) : Option Scanner := do
  let s ← s.dropCandidate
  let (text, c) ← blockScalar literal s.indent s.cursor
  return ((s.allowKey true).at_ c).emit (.scalar text false)

/-- Whether a plain scalar may start with `ch`, which `next` follows. -/
def startsPlain (inFlow : Bool) (ch : Char) (next : Option Char) : Bool :=
  !("-?:,[]\x7b\x7d#&*!|>'\"%@`".toList.contains ch || isBlank ch || isBreak ch) ||
    (ch == '-' && !next.any isBlank) ||
    (!inFlow && (ch == '?' || ch == ':') && !Cursor.isGap next)

def tokenAt (ch : Char) (s : Scanner) : Option Scanner :=
  let c := s.cursor
  let next := c.peek? 1
  let indicates := s.inFlow || Cursor.isGap next
  if c.column == 0 && ch == '%' then do
    let s ← (s.unroll (-1)).dropCandidate
    let (t, c) ← directive s.cursor
    return ((s.allowKey false).at_ c).emit t
  else if c.isDocumentMark '-' then s.documentMark .documentStart
  else if c.isDocumentMark '.' then s.documentMark .documentEnd
  else if ch == '[' then s.opening .sequenceOpen
  else if ch == '\x7b' then s.opening .mappingOpen
  else if ch == ']' then s.closing .sequenceClose
  else if ch == '\x7d' then s.closing .mappingClose
  else if ch == ',' then do
    let s ← s.dropCandidate
    return ((s.allowKey true).skip 1).emit .comma
  else if ch == '-' && Cursor.isGap next then s.blockItem
  else if ch == '?' && indicates then s.keyMark
  else if ch == ':' && indicates then s.valueMark
  else if ch == '*' then s.keyable fun c => (reference c).map fun r => (.alias r.1, r.2)
  else if ch == '&' then s.keyable fun c => (reference c).map fun r => (.anchor r.1, r.2)
  else if ch == '!' then s.keyable (tag s.inFlow)
  else if ch == '|' && !s.inFlow then s.block true
  else if ch == '>' && !s.inFlow then s.block false
  else if ch == '\'' then s.keyable fun c => (quotedScalar true c).map fun r => (.scalar r.1 false, r.2)
  else if ch == '"' then s.keyable fun c => (quotedScalar false c).map fun r => (.scalar r.1 false, r.2)
  else if startsPlain s.inFlow ch next then s.plain
  else none

def finish (s : Scanner) : Option Scanner := (s.unroll (-1)).dropCandidate

def run (fuel : Nat) (s : Scanner) : Option (List Token) :=
  match fuel with
  | 0 => none
  | fuel + 1 => do
    let s ← (s.toNext (s.cursor.rest.length + 1)).dropStale
    let s := s.unroll s.cursor.column
    match s.cursor.head? with
    | none => return (← s.finish).tokens
    | some ch => run fuel (← s.tokenAt ch)

end Scanner

/-- The tokens of a text, unless it is malformed. -/
def tokens? (text : String) : Option (List Token) :=
  let cs := text.toList
  if cs.all isAllowed then (Scanner.start cs).run (cs.length + 1) else none

end PolicyForge.Data.Yaml
