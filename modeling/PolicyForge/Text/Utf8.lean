/-!
# Bytes as text

Output of another program is read as text whatever it holds: bytes that are no UTF-8 become
replacement characters, one for each longest run that could have started a character.
-/
namespace PolicyForge.Text

/-- A character of which some bytes have been read. -/
structure Begun where
  owed : Nat
  /-- The least and the greatest byte that may come next. -/
  low : Nat
  high : Nat
  value : Nat
  deriving DecidableEq, Repr

/-- What stands for bytes that are no character. -/
def replacement : Char := '\uFFFD'

/-- What the first byte of a character begins; the second byte of some is restricted so that every
character has one spelling and none is a surrogate. -/
def begin? (b : Nat) : Option Begun :=
  if 0xC2 ≤ b ∧ b ≤ 0xDF then some ⟨1, 0x80, 0xBF, b - 0xC0⟩
  else if b = 0xE0 then some ⟨2, 0xA0, 0xBF, 0⟩
  else if b = 0xED then some ⟨2, 0x80, 0x9F, 0xD⟩
  else if 0xE1 ≤ b ∧ b ≤ 0xEF then some ⟨2, 0x80, 0xBF, b - 0xE0⟩
  else if b = 0xF0 then some ⟨3, 0x90, 0xBF, 0⟩
  else if 0xF1 ≤ b ∧ b ≤ 0xF3 then some ⟨3, 0x80, 0xBF, b - 0xF0⟩
  else if b = 0xF4 then some ⟨3, 0x80, 0x8F, 4⟩
  else none

/-- A byte between characters: the characters that it ends and what it begins. -/
def freshByte (b : Nat) : List Char × Option Begun :=
  if b < 0x80 then ([Char.ofNat b], none)
  else
    match begin? b with
    | some p => ([], some p)
    | none => ([replacement], none)

/-- One more byte: the characters that it ends and what is begun after it. -/
def nextByte (p : Option Begun) (b : Nat) : List Char × Option Begun :=
  match p with
  | none => freshByte b
  | some p =>
    if p.low ≤ b ∧ b ≤ p.high then
      let value := p.value * 64 + (b - 0x80)
      if p.owed ≤ 1 then ([Char.ofNat value], none) else ([], some ⟨p.owed - 1, 0x80, 0xBF, value⟩)
    else
      let (ended, next) := freshByte b
      (replacement :: ended, next)

/-- The characters of bytes, with what is begun before them. -/
def charactersFrom : Option Begun → List UInt8 → List Char
  | none, [] => []
  | some _, [] => [replacement]
  | p, b :: bs =>
    let (ended, next) := nextByte p b.toNat
    ended ++ charactersFrom next bs

/-- The text that bytes spell. -/
def ofBytes (bytes : ByteArray) : String :=
  match String.fromUTF8? bytes with
  | some s => s
  | none => String.ofList (charactersFrom none bytes.data.toList)

end PolicyForge.Text
