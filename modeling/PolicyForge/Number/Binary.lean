/-!
# Binary floating point, exactly

A number of a binary interchange format is held as its bits.  `Format.read` says which real it
stands for, as mantissa and power of two, and `Format.nearest` finds the bits of the number
nearest to a quotient of naturals, a tie going to the even mantissa.  Everything is arithmetic
on naturals.
-/
namespace PolicyForge.Number

/-- A binary format, given by the widths of its two fields. -/
structure Format where
  precision : Nat
  exponentBits : Nat
  deriving DecidableEq, Repr

def double : Format := ⟨52, 11⟩

def single : Format := ⟨23, 8⟩

/-- What a pattern of bits stands for: `finite negative m e` is the real `m * 2 ^ e` with its sign. -/
inductive Reading where
  | nan
  | infinite (negative : Bool)
  | finite (negative : Bool) (mantissa : Nat) (exponent : Int)
  deriving DecidableEq, Repr

namespace Format

def exponentCount (f : Format) : Nat := Nat.pow 2 f.exponentBits

/-- The exponent of the smallest numbers. -/
def leastExponent (f : Format) : Int :=
  2 - (Nat.pow 2 (f.exponentBits - 1) : Nat) - f.precision

def signBit (f : Format) : Nat := Nat.pow 2 (f.precision + f.exponentBits)

def infinity (f : Format) : Nat := (f.exponentCount - 1) * Nat.pow 2 f.precision

/-- The bits of the number that is none. -/
def quietNan (f : Format) : Nat := f.infinity + Nat.pow 2 (f.precision - 1)

def read (f : Format) (bits : Nat) : Reading :=
  let negative := bits / f.signBit % 2 == 1
  let field := bits / Nat.pow 2 f.precision % f.exponentCount
  let stored := bits % Nat.pow 2 f.precision
  if field == f.exponentCount - 1 then
    if stored == 0 then .infinite negative else .nan
  else if field == 0 then .finite negative stored f.leastExponent
  else .finite negative (stored + Nat.pow 2 f.precision) (f.leastExponent + (field - 1 : Nat))

/-- The quotient rounded to the nearest natural, a tie going to the even one. -/
def roundEven (num den : Nat) : Nat :=
  let q := num / den
  let r := num % den
  if 2 * r < den then q
  else if den < 2 * r then q + 1
  else if q % 2 == 0 then q else q + 1

/-- The quotient `num / (den * 2 ^ e)` rounded to the nearest natural. -/
def roundScaled (num den : Nat) (e : Int) : Nat :=
  match e with
  | .ofNat k => roundEven num (den * Nat.pow 2 k)
  | .negSucc k => roundEven (num * Nat.pow 2 (k + 1)) den

/-- The bits, without sign, of the number nearest to `num / den`; too large a quotient gives the
bits of infinity. -/
def nearest (f : Format) (num den : Nat) : Nat :=
  if num == 0 || den == 0 then 0
  else
    let guess : Int := (num.log2 : Int) - den.log2 - f.precision
    -- The guess is the wanted exponent or one above it.
    let low := max (guess - 1) f.leastExponent
    let e := if roundScaled num den low < Nat.pow 2 (f.precision + 1) then low
      else max guess f.leastExponent
    let bits := (e - f.leastExponent).toNat * Nat.pow 2 f.precision + roundScaled num den e
    min bits f.infinity

def nearestSigned (f : Format) (negative : Bool) (num den : Nat) : Nat :=
  f.nearest num den + if negative then f.signBit else 0

def ofInt (f : Format) (i : Int) : Nat := f.nearestSigned (i < 0) i.natAbs 1

def quotient (m : Nat) (e : Int) : Nat × Nat :=
  match e with
  | .ofNat k => (m * Nat.pow 2 k, 1)
  | .negSucc k => (m, Nat.pow 2 (k + 1))

/-- The bits of `target` nearest to the number that `bits` stands for in `f`. -/
def convert (f target : Format) (bits : Nat) : Nat :=
  match f.read bits with
  | .nan => target.quietNan
  | .infinite negative => target.infinity + if negative then target.signBit else 0
  | .finite negative m e =>
    let (num, den) := quotient m e
    target.nearestSigned negative num den

end Format

end PolicyForge.Number
