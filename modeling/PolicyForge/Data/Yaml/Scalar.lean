import PolicyForge.Data.Yaml.Cursor
import PolicyForge.Data.Yaml.Plain
/-!
# Scalars as they are written

A scalar over several lines is folded: one break becomes a blank, and of several the first one is
dropped.  Each reader takes the cursor at the first character of a scalar and gives its text and the
cursor after it, or nothing where the scalar is malformed.
-/
namespace PolicyForge.Data.Yaml

/-! ## Gaps -/

/-- Blanks and breaks between two pieces of a scalar. -/
structure Gap where
  /-- The blanks before the first break. -/
  blanks : List Char
  breaks : List Char
  broken : Bool

/-- What stands for a gap in the text. -/
def Gap.fold (g : Gap) : List Char :=
  if !g.broken then g.blanks
  else
    match g.breaks with
    | ['\n'] => [' ']
    | '\n' :: more => more
    | all => all

/-- Reads a gap.  After a break no tab may come before the column `least`. -/
def gap (least : Nat) (fuel : Nat) (g : Gap) (c : Cursor) : Option (Gap × Cursor) :=
  match fuel, c.head? with
  | 0, _ | _, none => some (g, c)
  | fuel + 1, some ch =>
    if isBlank ch then
      if g.broken && c.column < least && ch == '\t' then none
      else
        gap least fuel (if g.broken then g else { g with blanks := g.blanks ++ [ch] }) (c.skip 1)
    else if isBreak ch then
      let (text, c) := c.lineBreak
      gap least fuel { g with breaks := g.breaks ++ text, broken := true } c
    else some (g, c)

/-! ## Quoted scalars -/

/-- What a character after a backslash stands for. -/
def escaped? : Char → Option Char
  | '0' => some '\x00'
  | 'a' => some '\x07'
  | 'b' => some '\x08'
  | 't' | '\t' => some '\t'
  | 'n' => some '\n'
  | 'v' => some '\x0B'
  | 'f' => some '\x0C'
  | 'r' => some '\r'
  | 'e' => some '\x1B'
  | ' ' => some ' '
  | '"' => some '"'
  | '/' => some '/'
  | '\\' => some '\\'
  | 'N' => some '\u0085'
  | '_' => some '\u00A0'
  | 'L' => some '\u2028'
  | 'P' => some '\u2029'
  | _ => none

/-- The number of digits after the letter of an escape by number. -/
def escapeWidth? : Char → Option Nat
  | 'x' => some 2
  | 'u' => some 4
  | 'U' => some 8
  | _ => none

def charOf? (n : Nat) : Option Char := if n.isValidChar then some (Char.ofNat n) else none

def escape? (c : Cursor) : Option (Char × Cursor) := do
  let letter ← c.peek? 1
  match escapeWidth? letter with
  | none =>
    let ch ← escaped? letter
    return (ch, c.skip 2)
  | some width =>
    let digits := (c.rest.drop 2).take width
    if digits.length < width then none
    else
      let ch ← charOf? (← natIn 16 digits)
      return (ch, c.skip (2 + width))

/-- How a run of characters in quotes ends. -/
inductive RunEnd where
  /-- At the quote, at a gap or at the end of the text. -/
  | plain
  /-- At a break with a backslash in front, which is already behind the cursor. -/
  | joined

/-- The characters of a quoted scalar up to a gap or the closing quote. -/
def quotedRun (single : Bool) (fuel : Nat) (text : List Char) (c : Cursor) :
    Option (List Char × RunEnd × Cursor) :=
  match fuel, c.head? with
  | 0, _ | _, none => some (text.reverse, .plain, c)
  | fuel + 1, some ch =>
    if isBlank ch || isBreak ch then some (text.reverse, .plain, c)
    else if single then
      if ch == '\'' then
        if c.peek? 1 == some '\'' then quotedRun single fuel ('\'' :: text) (c.skip 2)
        else some (text.reverse, .plain, c)
      else quotedRun single fuel (ch :: text) (c.skip 1)
    else if ch == '"' then some (text.reverse, .plain, c)
    else if ch == '\\' then
      if (c.peek? 1).any isBreak then some (text.reverse, .joined, (c.skip 1).lineBreak.2)
      else do
        let (e, c) ← escape? c
        quotedRun single fuel (e :: text) c
    else quotedRun single fuel (ch :: text) (c.skip 1)

def quotedRest (single : Bool) (fuel : Nat) (c : Cursor) : Option (List Char × Cursor) :=
  match fuel with
  | 0 => none
  | fuel + 1 =>
    if c.atDocumentMark || c.rest.isEmpty then none
    else do
      let (run, runEnd, c) ← quotedRun single (c.rest.length + 1) [] c
      if c.head? == some (if single then '\'' else '"') then return (run, c.skip 1)
      else
        let joined := match runEnd with
          | .joined => true
          | .plain => false
        let (g, c) ← gap 0 (c.rest.length + 1) ⟨[], [], joined⟩ c
        let (more, c) ← quotedRest single fuel c
        return (run ++ (if joined then g.breaks else g.fold) ++ more, c)

def quotedScalar (single : Bool) (c : Cursor) : Option (String × Cursor) := do
  let (text, c) ← quotedRest single (c.rest.length + 1) (c.skip 1)
  return (String.ofList text, c)

/-! ## Plain scalars -/

def isFlowIndicator (c : Char) : Bool :=
  c == ',' || c == '[' || c == ']' || c == '\x7b' || c == '\x7d'

/-- The characters of a plain scalar up to a gap or an indicator that ends it. -/
def plainRun (inFlow : Bool) (fuel : Nat) (text : List Char) (c : Cursor) :
    Option (List Char × Cursor) :=
  match fuel, c.head? with
  | 0, _ | _, none => some (text.reverse, c)
  | fuel + 1, some ch =>
    if isBlank ch || isBreak ch then some (text.reverse, c)
    else if inFlow && ch == ':' && (c.peek? 1).any (fun d => isFlowIndicator d || d == '?') then none
    else if (ch == ':' && Cursor.isGap (c.peek? 1)) || (inFlow && isFlowIndicator ch) then
      some (text.reverse, c)
    else plainRun inFlow fuel (ch :: text) (c.skip 1)

/-- The rest of a plain scalar: its text, whether it ended behind a break, and the cursor.  `before`
is the gap in front, which counts only if something follows. -/
def plainRest (inFlow : Bool) (least : Nat) (fuel : Nat) (before : Gap) (c : Cursor) :
    Option (List Char × Bool × Cursor) :=
  match fuel with
  | 0 => none
  | fuel + 1 =>
    if c.atDocumentMark || c.head? == some '#' then some ([], before.broken, c)
    else do
      let (run, after) ← plainRun inFlow (c.rest.length + 1) [] c
      let text := if run.isEmpty then [] else before.fold ++ run
      let pending : Gap := if run.isEmpty then before else ⟨[], [], false⟩
      if after.rest.isEmpty || !Cursor.isGap after.head? then
        return (text, pending.broken, after)
      else
        let (g, next) ← gap least (after.rest.length + 1) pending after
        if !inFlow && next.column < least then return (text, g.broken, next)
        else
          let (more, broken, c) ← plainRest inFlow least fuel g next
          return (text ++ more, broken, c)

/-- A plain scalar in a block of the given indentation: its text, whether a break follows it, and
the cursor after what follows. -/
def plainScalar (inFlow : Bool) (indent : Int) (c : Cursor) : Option (String × Bool × Cursor) := do
  let (text, broken, c) ←
    plainRest inFlow (indent + 1).toNat (c.rest.length + 1) ⟨[], [], false⟩ c
  return (String.ofList text, broken, c)

/-! ## Block scalars -/

/-- What becomes of the breaks at the end of a block scalar. -/
inductive Chomping where
  | strip
  | clip
  | keep
  deriving DecidableEq

/-- The header of a block scalar after its indicator: chomping and explicit indentation. -/
def blockHeader (c : Cursor) : Option (Chomping × Option Nat × Cursor) := do
  let chomping (c : Cursor) : Option (Chomping × Cursor) :=
    match c.head? with
    | some '+' => some (.keep, c.skip 1)
    | some '-' => some (.strip, c.skip 1)
    | _ => none
  let digit (c : Cursor) : Option (Option Nat × Cursor) :=
    match c.head?.bind (digitIn 10) with
    | none => some (none, c)
    | some 0 => none
    | some n => some (some n, c.skip 1)
  let (how, width, c) ← match chomping c with
    | some (how, c) => do
      let (width, c) ← digit c
      pure (how, width, c)
    | none => do
      let (width, c) ← digit c
      match width, chomping c with
      | some _, some (how, c) => pure (how, width, c)
      | _, _ => pure (.clip, width, c)
  let (_, c) := c.span isBlank
  let c := if c.head? == some '#' then (c.span fun ch => !isBreak ch).2 else c
  if Cursor.isEnd c.head? then return (how, width, c.lineBreak.2) else none

/-- The breaks of empty lines, and the cursor behind the indentation of the first line that is not
empty.  `indent` is the indentation, or zero while it is not known; `deepest` the longest run of
blanks so far. -/
def blockBreaks (indent : Nat) (fuel deepest : Nat) (breaks : List Char) (c : Cursor) :
    Option (List Char × Nat × Cursor) :=
  match fuel with
  | 0 => none
  | fuel + 1 =>
    let blanks := c.rest.takeWhile (· == ' ')
    let c := c.skip (if indent == 0 then blanks.length else min blanks.length (indent - c.column))
    let deepest := max deepest c.column
    if (indent == 0 || c.column < indent) && c.head? == some '\t' then none
    else if c.head?.any isBreak then
      let (text, c) := c.lineBreak
      blockBreaks indent fuel deepest (breaks ++ text) c
    else some (breaks, deepest, c)

/-- The breaks after the last line of a block scalar: the first of them and those after it. -/
structure Tail where
  last : List Char
  more : List Char

/-- The lines of a block scalar with the breaks between them, and the breaks at its end.  `before`
are the breaks in front; a folded scalar joins two lines only if neither starts with a blank. -/
def blockLines (literal : Bool) (indent : Nat) (fuel : Nat) (before : Tail) (lastBlank : Bool)
    (c : Cursor) : Option (List Char × Tail × Cursor) :=
  match fuel with
  | 0 => none
  | fuel + 1 =>
    if c.column != indent || c.rest.isEmpty then some ([], before, c)
    else do
      let blank := c.head?.any isBlank
      let join :=
        if !literal && before.last == ['\n'] && !lastBlank && !blank then
          if before.more.isEmpty then [' '] else []
        else before.last
      let (line, c) := c.span fun ch => !isBreak ch
      let (last, c) := c.lineBreak
      let (more, _, c) ← blockBreaks indent (c.rest.length + 1) 0 [] c
      let (text, tail, c) ← blockLines literal indent fuel ⟨last, more⟩ blank c
      return (join ++ before.more ++ line ++ text, tail, c)

/-- A block scalar below a block of the given indentation. -/
def blockScalar (literal : Bool) (parent : Int) (c : Cursor) : Option (String × Cursor) := do
  let (chomping, width, c) ← blockHeader (c.skip 1)
  let given := match width with
    | some n => if 0 ≤ parent then (parent + n).toNat else n
    | none => 0
  let (breaks, deepest, c) ← blockBreaks given (c.rest.length + 1) 0 [] c
  let indent := if given == 0 then max (max deepest (parent + 1).toNat) 1 else given
  let (text, tail, c) ← blockLines literal indent (c.rest.length + 1) ⟨[], breaks⟩ false c
  let ending := match chomping with
    | .strip => []
    | .clip => tail.last
    | .keep => tail.last ++ tail.more
  return (String.ofList (text ++ ending), c)

end PolicyForge.Data.Yaml
