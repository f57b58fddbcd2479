/-!
# Blank characters

A blank is a character with the property White_Space.  `trim` removes the blanks at both ends of
a text and `words` is the text cut at its blanks; both walk the text once from the left.
-/
namespace PolicyForge.Text

/-- Characters with the property White_Space. -/
def isBlank (c : Char) : Bool :=
  let n := c.toNat
  (0x09 ≤ n && n ≤ 0x0D) || n == 0x20 || n == 0x85 || n == 0xA0 || n == 0x1680 ||
    (0x2000 ≤ n && n ≤ 0x200A) || n == 0x2028 || n == 0x2029 || n == 0x202F || n == 0x205F ||
    n == 0x3000

def trimStart (s : List Char) : List Char := s.dropWhile isBlank

/-- The text without the characters satisfying `p` that it ends with. -/
def dropEndWhile (p : Char → Bool) : List Char → List Char
  | [] => []
  | c :: s =>
    match dropEndWhile p s with
    | [] => if p c then [] else [c]
    | t => c :: t

def trimEnd (s : List Char) : List Char := dropEndWhile isBlank s

def trim (s : List Char) : List Char := trimEnd (trimStart s)

def allBlank (s : List Char) : Bool := s.all isBlank

/-- The maximal runs of characters that are not blank, in order. -/
def words : List Char → List (List Char)
  | [] => []
  | c :: s =>
    if isBlank c then words s
    else
      match s, words s with
      | [], _ => [[c]]
      | d :: _, ws =>
        if isBlank d then [c] :: ws
        else
          match ws with
          | [] => [[c]]
          | w :: ws => (c :: w) :: ws

theorem dropEndWhile_eq_nil {p : Char → Bool} : ∀ {s : List Char},
    dropEndWhile p s = [] ↔ s.all p = true
  | [] => by simp [dropEndWhile]
  | c :: s => by
    have ih := dropEndWhile_eq_nil (p := p) (s := s)
    unfold dropEndWhile
    split
    · rename_i h
      have hs := ih.1 h
      by_cases hc : p c = true <;> simp [hc, hs]
    · rename_i h
      have hs : ¬ s.all p = true := fun hs => h (ih.2 hs)
      simp [List.all_cons, hs]

theorem trim_eq_nil {s : List Char} : trim s = [] ↔ allBlank s = true := by
  rw [trim, trimEnd, dropEndWhile_eq_nil, allBlank, trimStart]
  induction s with
  | nil => simp
  | cons c s ih => by_cases hc : isBlank c = true <;> simp_all

end PolicyForge.Text
