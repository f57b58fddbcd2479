/-!
# Deflated data

The decoder of the deflate format: blocks of stored bytes, or of symbols in a prefix code that is
either fixed or described at the start of the block.  A symbol is a byte, the end of the block, or
a length with a distance back into what has been decoded.  Every step takes at least one bit, so
the number of bits bounds the work.
-/
namespace PolicyForge.Package

inductive InflateError where
  | truncated
  | corrupt
  deriving DecidableEq, Repr

abbrev Inflated (α : Type) := Except InflateError α

/-- Data read bit by bit, the lowest bit of each byte first. -/
structure Bits where
  data : ByteArray
  position : Nat

namespace Bits

def bit (b : Bits) : Inflated (Nat × Bits) :=
  match b.data.data[b.position / 8]? with
  | none => .error .truncated
  | some byte => .ok (byte.toNat / Nat.pow 2 (b.position % 8) % 2, { b with position := b.position + 1 })

def number : Nat → Bits → Inflated (Nat × Bits)
  | 0, b => .ok (0, b)
  | n + 1, b => do
    let (low, b) ← b.bit
    let (high, b) ← number n b
    return (low + 2 * high, b)

/-- Skips the rest of a byte. -/
def align (b : Bits) : Bits := { b with position := (b.position + 7) / 8 * 8 }

def bytes (n : Nat) (b : Bits) : Inflated (ByteArray × Bits) :=
  let start := b.position / 8
  if b.data.size < start + n then .error .truncated
  else .ok (b.data.extract start (start + n), { b with position := b.position + 8 * n })

end Bits

/-! ## Prefix codes -/

/-- A prefix code: how many codes there are of each length, and the symbols by code. -/
structure Code where
  counts : List Nat
  symbols : Array Nat

def maxCodeLength : Nat := 15

/-- The code in which symbol `i` has the length `lengths[i]`, none if it is zero. -/
def Code.ofLengths (lengths : List Nat) : Code :=
  let tagged := lengths.zipIdx
  let sizes := (List.range maxCodeLength).map (· + 1)
  { counts := sizes.map fun n => lengths.count n
    symbols := (sizes.flatMap fun n => (tagged.filter (·.1 == n)).map (·.2)).toArray }

/-- Reads one symbol.  `code` is what has been read, `first` the first code of the present length and
`index` the number of symbols with shorter codes. -/
def Code.readFrom (c : Code) (code first index : Nat) : List Nat → Bits → Inflated (Nat × Bits)
  | [], _ => .error .corrupt
  | count :: counts, b => do
    let (bit, b) ← b.bit
    let code := 2 * code + bit
    let first := 2 * first
    if first ≤ code ∧ code < first + count then
      match c.symbols[index + (code - first)]? with
      | some s => return (s, b)
      | none => throw .corrupt
    else c.readFrom code (first + count) (index + count) counts b

def Code.read (c : Code) (b : Bits) : Inflated (Nat × Bits) := c.readFrom 0 0 0 c.counts b

/-! ## Blocks -/

/-- The least length of each length symbol, and how many bits add to it. -/
def lengthTable : Array (Nat × Nat) := #[
  (3, 0), (4, 0), (5, 0), (6, 0), (7, 0), (8, 0), (9, 0), (10, 0), (11, 1), (13, 1), (15, 1),
  (17, 1), (19, 2), (23, 2), (27, 2), (31, 2), (35, 3), (43, 3), (51, 3), (59, 3), (67, 4), (83, 4),
  (99, 4), (115, 4), (131, 5), (163, 5), (195, 5), (227, 5), (258, 0)]

/-- The least distance of each distance symbol, and how many bits add to it. -/
def distanceTable : Array (Nat × Nat) := #[
  (1, 0), (2, 0), (3, 0), (4, 0), (5, 1), (7, 1), (9, 2), (13, 2), (17, 3), (25, 3), (33, 4),
  (49, 4), (65, 5), (97, 5), (129, 6), (193, 6), (257, 7), (385, 7), (513, 8), (769, 8), (1025, 9),
  (1537, 9), (2049, 10), (3073, 10), (4097, 11), (6145, 11), (8193, 12), (12289, 12), (16385, 13),
  (24577, 13)]

/-- The code of literals and lengths that needs no description. -/
def fixedLiterals : Code :=
  .ofLengths (List.replicate 144 8 ++ List.replicate 112 9 ++ List.replicate 24 7 ++
    List.replicate 8 8)

def fixedDistances : Code := .ofLengths (List.replicate 30 5)

/-- A number given by a table entry and the bits after it. -/
def extended (table : Array (Nat × Nat)) (symbol : Nat) (b : Bits) : Inflated (Nat × Bits) :=
  match table[symbol]? with
  | none => .error .corrupt
  | some (least, extra) => do
    let (more, b) ← b.number extra
    return (least + more, b)

/-- Appends `n` bytes, each the one `distance` before it. -/
def copyBack (distance : Nat) : Nat → ByteArray → ByteArray
  | 0, out => out
  | n + 1, out => copyBack distance n (out.push (out.data.getD (out.size - distance) 0))

def symbols (literals distances : Code) (fuel : Nat) (out : ByteArray) (b : Bits) :
    Inflated (ByteArray × Bits) :=
  match fuel with
  | 0 => .error .truncated
  | fuel + 1 => do
    let (s, b) ← literals.read b
    if s < 256 then symbols literals distances fuel (out.push s.toUInt8) b
    else if s = 256 then return (out, b)
    else
      let (length, b) ← extended lengthTable (s - 257) b
      let (d, b) ← distances.read b
      let (distance, b) ← extended distanceTable d b
      if out.size < distance then throw .corrupt
      else symbols literals distances fuel (copyBack distance length out) b

/-- The order in which the lengths of the code for lengths are written. -/
def lengthOrder : List Nat := [16, 17, 18, 0, 8, 7, 9, 6, 10, 5, 11, 4, 12, 3, 13, 2, 14, 1, 15]

/-- The `n` numbers of three bits that describe the code for lengths. -/
def shortLengths : Nat → Bits → Inflated (List Nat × Bits)
  | 0, b => .ok ([], b)
  | n + 1, b => do
    let (l, b) ← b.number 3
    let (ls, b) ← shortLengths n b
    return (l :: ls, b)

/-- Code lengths, up to `total` of them, with runs. -/
def codeLengths (c : Code) (total : Nat) (fuel : Nat) (done : List Nat) (b : Bits) :
    Inflated (List Nat × Bits) :=
  if total ≤ done.length then
    if done.length = total then .ok (done.reverse, b) else .error .corrupt
  else
    match fuel with
    | 0 => .error .corrupt
    | fuel + 1 => do
      let (s, b) ← c.read b
      if s < 16 then codeLengths c total fuel (s :: done) b
      else if s = 16 then
        match done with
        | [] => throw .corrupt
        | last :: _ =>
          let (n, b) ← b.number 2
          codeLengths c total fuel (List.replicate (n + 3) last ++ done) b
      else if s = 17 then
        let (n, b) ← b.number 3
        codeLengths c total fuel (List.replicate (n + 3) 0 ++ done) b
      else
        let (n, b) ← b.number 7
        codeLengths c total fuel (List.replicate (n + 11) 0 ++ done) b

/-- The two codes described at the start of a block. -/
def describedCodes (b : Bits) : Inflated (Code × Code × Bits) := do
  let (literals, b) ← b.number 5
  let (distances, b) ← b.number 5
  let (count, b) ← b.number 4
  let (short, b) ← shortLengths (count + 4) b
  let written := lengthOrder.zip short
  let lengths := (List.range 19).map fun i => ((written.find? (·.1 == i)).map (·.2)).getD 0
  let total := literals + 257 + (distances + 1)
  let (all, b) ← codeLengths (.ofLengths lengths) total (total + 1) [] b
  return (.ofLengths (all.take (literals + 257)), .ofLengths (all.drop (literals + 257)), b)

def blocks (fuel : Nat) (out : ByteArray) (b : Bits) : Inflated ByteArray :=
  match fuel with
  | 0 => .error .truncated
  | fuel + 1 => do
    let (last, b) ← b.bit
    let (kind, b) ← b.number 2
    let (out, b) ← match kind with
      | 0 => do
        let (length, b) ← b.align.number 16
        let (check, b) ← b.number 16
        if length + check ≠ 0xFFFF then throw .corrupt
        let (bytes, b) ← b.bytes length
        pure (out ++ bytes, b)
      | 1 => symbols fixedLiterals fixedDistances fuel out b
      | 2 => do
        let (literals, distances, b) ← describedCodes b
        symbols literals distances fuel out b
      | _ => throw .corrupt
    if last = 1 then return out else blocks fuel out b

def inflate (data : ByteArray) : Inflated ByteArray :=
  blocks (8 * data.size + 1) .empty ⟨data, 0⟩

end PolicyForge.Package
