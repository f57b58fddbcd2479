import PolicyForge.Number.Binary
/-!
# The fewest digits that read back

A finite number `m * 2 ^ e` of a binary format is the nearest one for an interval of reals, whose
ends belong to it exactly when `m` is even.  Its shortest decimal is the point of that interval on
the coarsest decimal grid that meets it, and of two such points the nearer one.  What happens when
both are equally near is left to the caller.
-/
namespace PolicyForge.Number

/-- A decimal `digits * 10 ^ exponent`. -/
structure ShortDecimal where
  digits : Nat
  exponent : Int
  deriving DecidableEq, Repr

/-- Which of two equally near points is taken. -/
inductive Tie where
  /-- The one farther from zero. -/
  | up
  /-- The one with the even last digit. -/
  | even
  deriving DecidableEq, Repr

/-- The reals that a binary number is nearest to, as numerators over one denominator. -/
structure Interval where
  low : Nat
  value : Nat
  high : Nat
  den : Nat
  closed : Bool
  deriving Repr

/-- The interval of `m * 2 ^ e`; below a power of two the neighbour is only half as far. -/
def Format.interval (f : Format) (m : Nat) (e : Int) : Interval :=
  let gap := if m == Nat.pow 2 f.precision && f.leastExponent < e then 1 else 2
  let (scale, den) := Format.quotient 1 (e - 2)
  { low := (4 * m - gap) * scale, value := 4 * m * scale, high := (4 * m + 2) * scale,
    den := den, closed := m % 2 == 0 }

def Interval.holds (i : Interval) (a b : Nat) : Bool :=
  if i.closed then i.low * b ≤ a * i.den && a * i.den ≤ i.high * b
  else i.low * b < a * i.den && a * i.den < i.high * b

def digitCount (n : Nat) : Nat := (Nat.toDigits 10 n).length

/-- The least `k` with `num / den < 10 ^ k`. -/
def magnitude (num den : Nat) : Int :=
  if den ≤ num then digitCount (num / den)
  else
    let q := (den + num - 1) / num
    1 - (if q ≤ 1 then 0 else digitCount (q - 1) : Nat)

/-- Ten to a power, as a quotient. -/
def tenTo (x : Int) : Nat × Nat :=
  match x with
  | .ofNat k => (Nat.pow 10 k, 1)
  | .negSucc k => (1, Nat.pow 10 (k + 1))

/-- The better of the two neighbours of the value on the grid of step `10 ^ x`, if one of them lies
in the interval. -/
def Interval.onGrid (i : Interval) (tie : Tie) (x : Int) : Option ShortDecimal :=
  let (up, down) := tenTo x
  let lower := i.value * down / (i.den * up)
  let upper := lower + 1
  let lowerHolds := i.holds (lower * up) down && lower != 0
  let upperHolds := i.holds (upper * up) down
  -- Twice the value against the sum of the neighbours decides which is nearer.
  let twice := 2 * i.value * down
  let middle := (lower + upper) * up * i.den
  if lowerHolds && upperHolds then
    if twice < middle then some ⟨lower, x⟩
    else if middle < twice then some ⟨upper, x⟩
    else if tie == .even && lower % 2 == 0 then some ⟨lower, x⟩
    else some ⟨upper, x⟩
  else if lowerHolds then some ⟨lower, x⟩
  else if upperHolds then some ⟨upper, x⟩
  else none

/-- The shortest decimal of `m * 2 ^ e`, for a positive `m`. -/
def Format.shortest (f : Format) (tie : Tie) (m : Nat) (e : Int) : ShortDecimal :=
  let i := f.interval m e
  let k := magnitude i.value i.den
  ((List.range 20).findSome? fun n => i.onGrid tie (k - (n + 1 : Nat))).getD ⟨m, e⟩

end PolicyForge.Number
