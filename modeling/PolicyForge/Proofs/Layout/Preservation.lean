import Mathlib.Data.List.Forall2
import PolicyForge.Proofs.Layout.Lines
/-!
# Normal layout keeps what is written

Laying a text out anew touches blanks only: every line that counts is written once, in order, and
the scan meets it in the state in which it met it before (`normalize_preserves_lines`).  What may
differ within a line depends on what is open at its two ends, and `Preserved` says it case by case.
-/
namespace PolicyForge.Layout

open Text

/-- How the line `l'` that is written stands to the line `l` that it is written for. -/
structure Preserved (l l' : ScannedLine) : Prop where
  /-- It starts in the same state and at the same depth. -/
  start : l'.start = l.start
  /-- It leaves open what the line left open. -/
  stop : l'.stop = l.stop
  /-- It is the same line but for blanks at its ends. -/
  trimmed : trim l'.text = trim l.text
  /-- A line of code is trimmed and indented anew. -/
  code : l.start.carry = .code → l.stop.carry = .code →
    ∃ n, l'.text = List.replicate n ' ' ++ trim l.text
  /-- A line of code that opens a string keeps everything from its first character on. -/
  opensString : l.start.carry = .code → l.stop.carry = .verbatim →
    ∃ n, l'.text = List.replicate n ' ' ++ trimStart l.text
  /-- A line of code that opens a comment may lose a return at its end. -/
  opensComment : l.start.carry = .code → l.stop.carry = .blockComment →
    ∃ n, l'.text = List.replicate n ' ' ++ dropReturn (trimStart l.text)
  /-- A line that starts within a string or a comment and ends within a string is not touched. -/
  withinString : l.start.carry ≠ .code → l.stop.carry = .verbatim → l'.text = l.text
  /-- Any other line that starts within a string or a comment may lose a return at its end. -/
  within : l.start.carry ≠ .code → l.stop.carry ≠ .verbatim → l'.text = dropReturn l.text

/-- A directive is a line of code at the margin. -/
theorem laidText_code_code {l : ScannedLine} (hc : l.start.carry = .code)
    (hs : l.stop.carry = .code) : ∃ n, l.laidText = List.replicate n ' ' ++ trim l.text := by
  by_cases hd : isDirective l.text = true
  · exact ⟨0, by rw [ScannedLine.laidText_directive hc hd]; rfl⟩
  · exact ⟨_, ScannedLine.laidText_code hc (by simpa using hd) hs⟩

theorem laidText_code_open {l : ScannedLine} (hc : l.start.carry = .code)
    (hs : l.stop.carry ≠ .code) :
    ∃ n, l.laidText = List.replicate n ' ' ++ lineBody l.stop.carry (trimStart l.text) :=
  ⟨_, ScannedLine.laidText_opening hc hs⟩

theorem preserved_laid (l : ScannedLine) : Preserved l l.laid where
  start := rfl
  stop := l.stop_laid
  trimmed := l.trim_laidText
  code := laidText_code_code
  opensString hc hs := by
    have hlaid := laidText_code_open hc (by rw [hs]; decide)
    rw [hs] at hlaid
    exact hlaid
  opensComment hc hs := by
    have hlaid := laidText_code_open hc (by rw [hs]; decide)
    rw [hs] at hlaid
    exact hlaid
  withinString hc hs := by
    rw [ScannedLine.laid, ScannedLine.laidText_within hc, hs]
    rfl
  within hc hs := by
    rw [ScannedLine.laid, ScannedLine.laidText_within hc, lineBody_of_ne_verbatim hs]

/-- **Normal layout keeps every line that counts.**  But for empty lines of code, the lines of a
text in normal layout are those lines of the text that hold more than blanks or start within a
string or a comment, in their order; each starts and ends in the same state and at the same depth
and differs in blanks at its ends only. -/
theorem normalize_preserves_lines (s : String) :
    List.Forall₂ Preserved ((linesOf s.toList).filter ScannedLine.isKept)
      ((linesOf (normalize s).toList).filter fun l => !l.isGap) := by
  rw [toList_normalize, linesOf_normalizeChars, List.forall₂_map_right_iff, List.forall₂_same]
  intro l _
  exact preserved_laid l

/-- A directive at the margin, and a string that keeps its return and its empty line. -/
example : (linesOf (normalize " #r\n\n \x7b @\"x\r\n\n\"; \x7d ").toList).map (·.text) =
    ["#r".toList, [], "\x7b @\"x\r".toList, [], "\"; \x7d ".toList] := by
  decide

end PolicyForge.Layout
