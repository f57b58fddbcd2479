/-!
# Membership in a table of ranges

A property of characters is given as closed ranges of code points.  `inRanges` is the question
every table answers.
-/
namespace PolicyForge.Text

/-- Whether the code point of `c` lies in one of the closed ranges. -/
def inRanges (c : Char) : List (Nat × Nat) → Bool
  | [] => false
  | (lo, hi) :: rest => (lo ≤ c.toNat && c.toNat ≤ hi) || inRanges c rest

end PolicyForge.Text
