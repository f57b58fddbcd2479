/-!
# Cutting a text into lines

`splitOn p s` cuts at every character satisfying `p`, so it has one piece more than `s` has such
characters; `join` puts a separator between pieces.  `lines` is the reading of a text as lines
ended by LF or CR LF, where the end of the text ends no further line.
-/
namespace PolicyForge.Text

/-- The pieces between the characters that satisfy `p`. -/
def splitOn (p : Char → Bool) : List Char → List (List Char)
  | [] => [[]]
  | c :: s =>
    if p c then [] :: splitOn p s
    else
      match splitOn p s with
      | [] => [[c]]
      | w :: ws => (c :: w) :: ws

/-- The pieces with `sep` between neighbours. -/
def join (sep : List Char) : List (List Char) → List Char
  | [] => []
  | [w] => w
  | w :: ws => w ++ sep ++ join sep ws

/-- The line without a CR at its end. -/
def dropReturn : List Char → List Char
  | [] => []
  | ['\r'] => []
  | c :: s => c :: dropReturn s

/-- Ends every piece but the last, which stays only if it holds something. -/
def closeLines : List (List Char) → List (List Char)
  | [] => []
  | [w] => if w.isEmpty then [] else [w]
  | w :: ws => dropReturn w :: closeLines ws

/-- The lines of a text, each without its LF or CR LF. -/
def lines (s : List Char) : List (List Char) := closeLines (splitOn (· == '\n') s)

theorem splitOn_ne_nil (p : Char → Bool) : ∀ (s : List Char), splitOn p s ≠ []
  | [] => by simp [splitOn]
  | c :: s => by
    unfold splitOn
    split
    · simp
    · split <;> simp

/-- Cutting at one character and joining with it gives the text back. -/
theorem join_splitOn (sep : Char) : ∀ (s : List Char), join [sep] (splitOn (· == sep) s) = s
  | [] => by simp [splitOn, join]
  | c :: s => by
    have ih := join_splitOn sep s
    unfold splitOn
    cases h : splitOn (· == sep) s with
    | nil => exact absurd h (splitOn_ne_nil _ s)
    | cons w ws =>
      rw [h] at ih
      split
      · rename_i hc
        have hc : c = sep := by simpa using hc
        simp [join, hc, ih]
      · cases ws with
        | nil => simpa [join] using ih
        | cons v vs => simpa [join] using ih

end PolicyForge.Text
