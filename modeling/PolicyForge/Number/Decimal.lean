import PolicyForge.Text.Category
import PolicyForge.Number.Style
/-!
# Decimal numbers of 96 bits

A decimal is a mantissa below `2 ^ 96` divided by a power of ten of at most 28.  Reading keeps the
places that were written, and rounds half up where more were written than fit.
-/
namespace PolicyForge.Number

/-- `mantissa / 10 ^ scale`, with a sign. -/
structure Decimal where
  negative : Bool
  mantissa : Nat
  scale : Nat
  deriving DecidableEq, Repr

namespace Decimal

/-- One more than the largest mantissa. -/
def limit : Nat := Nat.pow 2 96

def maxScale : Nat := 28

/-- A decimal of the given parts; zero has no sign. -/
def ofParts (negative : Bool) (mantissa scale : Nat) : Decimal :=
  ⟨negative && mantissa != 0, mantissa, scale⟩

def ofInt (i : Int) : Decimal := ofParts (i < 0) i.natAbs 0

/-- The text of a decimal: every place is written, trailing zeros included. -/
def text (d : Decimal) : String :=
  let cs := Nat.toDigits 10 d.mantissa
  let cs := List.replicate (d.scale + 1 - cs.length) '0' ++ cs
  let whole := cs.take (cs.length - d.scale)
  let places := cs.drop (cs.length - d.scale)
  String.ofList
    ((if d.negative then ['-'] else []) ++ whole ++ if places.isEmpty then [] else '.' :: places)

/-- Ends a reading at the first digit that no longer fits: the digit rounds the mantissa. -/
def rounded (negative : Bool) (mantissa scale digit : Nat) : Option Decimal :=
  if digit < 5 then some (ofParts negative mantissa scale)
  else if mantissa + 1 < limit then some (ofParts negative (mantissa + 1) scale)
  else if scale == 0 then none
  else some (ofParts negative ((mantissa + 5) / 10) (scale - 1))

def digitValue (c : Char) : Nat := c.toNat - '0'.toNat

structure Partial where
  negative : Bool
  mantissa : Nat
  scale : Nat
  point : Bool
  any : Bool

/-- Reads digits, one point among them, and underscores after the first digit. -/
def readDigits (p : Partial) : List Char → Option Decimal
  | [] => if p.any then some (ofParts p.negative p.mantissa p.scale) else none
  | c :: rest =>
    let full := p.any && p.point && maxScale ≤ p.scale
    if Text.isAsciiDigit c then
      if full then rounded p.negative p.mantissa p.scale (digitValue c)
      else
        let next := p.mantissa * 10 + digitValue c
        if limit ≤ next then
          if p.point then rounded p.negative p.mantissa p.scale (digitValue c) else none
        else
          readDigits
            { p with mantissa := next, scale := if p.point then p.scale + 1 else 0, any := true } rest
    else if c == '.' then
      if full then some (ofParts p.negative p.mantissa p.scale)
      else if p.point then none
      else readDigits { p with point := true } rest
    else if c == '_' && p.any then
      if full then some (ofParts p.negative p.mantissa p.scale) else readDigits p rest
    else none

def readPlain : List Char → Option Decimal
  | '-' :: rest => readDigits ⟨true, 0, 0, false, false⟩ rest
  | '+' :: rest => readDigits ⟨false, 0, 0, false, false⟩ rest
  | cs => readDigits ⟨false, 0, 0, false, false⟩ cs

/-- A natural number of at most 32 bits, with an optional plus sign. -/
def readExponent (cs : List Char) : Option Nat :=
  let ds := match cs with
    | '+' :: rest => rest
    | _ => cs
  if ds.isEmpty || !ds.all Text.isAsciiDigit then none
  else
    let n := ds.foldl (fun n c => n * 10 + digitValue c) 0
    if n < UInt32.size then some n else none

/-- Fewer places, the last one rounded half up by the digit after it. -/
def rescale (d : Decimal) (scale : Nat) : Decimal :=
  if d.scale ≤ scale then d
  else
    let cut := d.scale - scale
    let last := d.mantissa / Nat.pow 10 (cut - 1)
    ofParts d.negative (last / 10 + if 5 ≤ last % 10 then 1 else 0) scale

def shiftDown (d : Decimal) (e : Nat) : Option Decimal :=
  if maxScale < e then none
  else if maxScale < d.scale + e then some { d.rescale (maxScale - e) with scale := maxScale }
  else some { d with scale := d.scale + e }

def shiftUp (d : Decimal) (e : Nat) : Option Decimal :=
  if e ≤ d.scale then some { d with scale := d.scale - e }
  else if maxScale < e then none
  else
    let m := d.mantissa * Nat.pow 10 (e - d.scale)
    if m < limit then some (ofParts d.negative m 0) else none

/-- Reads a decimal followed by a power of ten. -/
def readScientific (cs : List Char) : Option Decimal :=
  let isMark := fun c => c == 'e' || c == 'E'
  match cs.dropWhile (!isMark ·) with
  | [] => none
  | _ :: power => do
    let base ← readPlain (cs.takeWhile (!isMark ·))
    match power with
    | '-' :: rest => base.shiftDown (← readExponent rest)
    | _ => base.shiftUp (← readExponent power)

/-- The decimal that a text spells, plainly or with a power of ten. -/
def ofText? (s : String) : Option Decimal := (readPlain s.toList).or (readScientific s.toList)

/-- The decimal of a 64-bit binary number, through its positional text. -/
def ofDouble? (bits : Nat) : Option Decimal := ofText? (sourceStyle.text double bits)

end Decimal

end PolicyForge.Number
