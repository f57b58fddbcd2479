import PolicyForge.Build.Diagnostic
import PolicyForge.Proofs.Source.Outcome
import PolicyForge.Proofs.Source.QuotedTexts
/-!
# The line that a report shows

A report counts lines as the compiler does, which ends a line at any of the five breaks.  The line
that is shown with it is counted by LF alone.  For a rendered unit the two are the same exactly if
no text of its policies holds another break (`render_shows_iff`); where one does, every report after
it is shown with the line of an earlier place.
-/
namespace PolicyForge.Build

open Source

/-- The line that a report is about; the first one if it is about no place. -/
def Diagnostic.line (d : Diagnostic) : Nat := (d.position.map Position.line).getD 0

/-- A line of source, as a compiler counts them; empty past the end. -/
def sourceLine (source : String) (n : Nat) : String :=
  String.ofList (((sourceLines source.toList)[n]?).getD [])

/-- Every report is shown with the line of source that it is about. -/
def ShowsLines (source : String) : Prop :=
  ∀ d : Diagnostic, formatDiagnostic d source =
    "[ln." ++ toString (d.line + 1) ++ "] " ++ d.message ++ " - " ++ sourceLine source d.line

theorem formatDiagnostic_eq (d : Diagnostic) (source : String) : formatDiagnostic d source =
    "[ln." ++ toString (d.line + 1) ++ "] " ++ d.message ++ " - " ++
      String.ofList (((Text.lines source.toList)[d.line]?).getD []) := rfl

theorem showsLines_iff (source : String) :
    ShowsLines source ↔ holdsStray source.toList = false := by
  rw [← lines_eq_sourceLines_iff]
  constructor
  · intro h n
    have hline := h ⟨.error, some ⟨n, 0⟩, "", ""⟩
    rw [formatDiagnostic_eq, String.append_right_inj, sourceLine, String.ofList_inj] at hline
    exact hline
  · intro h d
    rw [formatDiagnostic_eq, sourceLine, h d.line]

/-- **A report on a rendered unit is shown with the line of source that it is about**, exactly if no
text in the meaning of a policy holds a line break other than LF and CR LF. -/
theorem render_shows_iff {model : Model} {assembly : String} {interrupt : Interrupt} {pen : Pen}
    (h : render model assembly interrupt = (.ok (), pen)) :
    ∃ policies, model.policies = .ok policies ∧
      (ShowsLines (Layout.normalize pen.written) ↔
        ∀ p ∈ policies.toList, ∀ s ∈ (meaning p).texts, holdsStray s.toList = false) := by
  obtain ⟨policies, hpolicies, hstray⟩ := holdsStray_of_render h
  refine ⟨policies, hpolicies, ?_⟩
  rw [showsLines_iff, hstray]
  simp [List.any_eq_false]

/-- A policy whose texts hold LF and CR LF. -/
theorem render_shows_newlines :
    let p := { Policy.named "a" "n" "k\n" with displayName := "x\r\ny" }
    ∃ pen, render (.ofPolicy p) "A" .quiet = (.ok (), pen) ∧
      ShowsLines (Layout.normalize pen.written) := by
  intro p
  obtain ⟨pen, hpen⟩ := exists_pen_of_isOk (by decide :
    (render (.ofPolicy p) "A" .quiet).1.isOk = true)
  obtain ⟨policies, hpolicies, hshows⟩ := render_shows_iff hpen
  obtain rfl : PolicySet.single p = policies := Except.ok.inj hpolicies
  exact ⟨pen, hpen, hshows.2 (by decide)⟩

/-- With a line separator in a name, some report is shown with a line that it is not about. -/
theorem render_shows_other_line :
    let p := { Policy.named "a" "n" "k" with displayName := "x\u2028y" }
    ∃ pen, render (.ofPolicy p) "A" .quiet = (.ok (), pen) ∧
      ¬ShowsLines (Layout.normalize pen.written) := by
  intro p
  obtain ⟨pen, hpen⟩ := exists_pen_of_isOk (by decide :
    (render (.ofPolicy p) "A" .quiet).1.isOk = true)
  obtain ⟨policies, hpolicies, hstray⟩ := holdsStray_of_render hpen
  obtain rfl : PolicySet.single p = policies := Except.ok.inj hpolicies
  refine ⟨pen, hpen, ?_⟩
  rw [showsLines_iff, hstray]
  decide

end PolicyForge.Build
