import PolicyForge.Proofs.Text.Trim
import PolicyForge.Source.Comment
/-!
# Two ways to count lines

A line of source ends at any of five characters, with CR LF counted once (`sourceLines`).  A line
of `Text.lines` ends at LF or CR LF only.  The two count alike exactly in texts that hold no other
break (`lines_eq_sourceLines_iff`); the first line that holds one is shown too long, and every line
after it is taken for a later one.
-/
namespace PolicyForge.Source

open Text

/-- A character that ends a line of source and is not LF. -/
def isStray (c : Char) : Bool := isLineBreak c && c != '\n'

def holdsStray (text : List Char) : Bool := (unifyReturns text).any isStray

/-- Whether a line that is ended by LF holds another break, a return before that LF apart. -/
def isAstray (line : List Char) : Bool := (dropReturn line).any isStray

theorem isLineBreak_eq_isStray {c : Char} (h : c ≠ '\n') : isLineBreak c = isStray c := by
  simp [isStray, h]

/-! ## Returns -/

theorem unifyReturns_of_newline_not_mem : ∀ {s : List Char}, '\n' ∉ s → unifyReturns s = s
  | [], _ => rfl
  | c :: s, h => by
    have hs : '\n' ∉ s := fun hn => h (List.mem_cons_of_mem c hn)
    have hne : ∀ t, ¬(c = '\r' ∧ s = '\n' :: t) := by
      rintro t ⟨-, rfl⟩
      exact hs List.mem_cons_self
    rw [unifyReturns.eq_3 _ _ (by simpa using hne), unifyReturns_of_newline_not_mem hs]

theorem unifyReturns_append_newline (rest : List Char) : ∀ {w : List Char}, '\n' ∉ w →
    unifyReturns (w ++ '\n' :: rest) = dropReturn w ++ '\n' :: unifyReturns rest
  | [], _ => by
    rw [List.nil_append, unifyReturns.eq_3 _ _ (by simp)]
    rfl
  | [c], h => by
    by_cases hc : c = '\r'
    · subst hc
      rfl
    · have hdrop : dropReturn [c] = [c] := dropReturn_append_of_ne hc []
      have ih := unifyReturns_append_newline rest (w := []) (by simp)
      rw [hdrop, List.singleton_append, List.singleton_append,
        unifyReturns.eq_3 _ _ (by simp [hc])]
      exact congrArg (c :: ·) ih
  | c :: d :: w, h => by
    have hw : '\n' ∉ d :: w := fun hn => h (List.mem_cons_of_mem c hn)
    have hd : d ≠ '\n' := fun hd => hw (hd ▸ List.mem_cons_self)
    have ih := unifyReturns_append_newline rest hw
    have hdrop : dropReturn (c :: d :: w) = c :: dropReturn (d :: w) := dropReturn.eq_3 _ _ (by simp)
    rw [hdrop, List.cons_append, unifyReturns.eq_3 _ _ (by simp [hd]), ih, List.cons_append]

theorem holdsStray_of_newline_not_mem {s : List Char} (h : '\n' ∉ s) :
    holdsStray s = s.any isStray := by
  rw [holdsStray, unifyReturns_of_newline_not_mem h]

theorem holdsStray_append_newline {w : List Char} (h : '\n' ∉ w) (rest : List Char) :
    holdsStray (w ++ '\n' :: rest) = (isAstray w || holdsStray rest) := by
  have hn : isStray '\n' = false := rfl
  simp [holdsStray, unifyReturns_append_newline rest h, isAstray, hn]

/-- A text whose lines are all ended holds a stray break if one of its lines does. -/
theorem holdsStray_ended : ∀ {ws : List (List Char)}, (∀ w ∈ ws, '\n' ∉ w) →
    holdsStray (ws.flatMap (· ++ ['\n'])) = ws.any isAstray
  | [], _ => rfl
  | w :: ws, h => by
    have ih := holdsStray_ended fun v hv => h v (List.mem_cons_of_mem w hv)
    rw [List.flatMap_cons, List.append_assoc, List.singleton_append,
      holdsStray_append_newline (h w List.mem_cons_self), ih, List.any_cons]

/-! ## Lines -/

/-- The first piece of a text with a break is not the text. -/
theorem getD_splitOn_zero_ne {p : Char → Bool} {s : List Char} (h : s.any p = true)
    (vs : List (List Char)) :
    ((splitOn p s ++ vs)[0]?).getD [] ≠ s := by
  cases hs : splitOn p s with
  | nil => exact absurd hs (splitOn_ne_nil p s)
  | cons w ws =>
    have hw : ∀ c ∈ w, p c = false := not_of_mem_splitOn s w (by rw [hs]; exact List.mem_cons_self)
    intro heq
    have hws : w = s := by simpa using heq
    obtain ⟨c, hc, hp⟩ := List.any_eq_true.1 h
    rw [← hws] at hc
    rw [hw c hc] at hp
    cases hp

theorem splitOn_isLineBreak_of_not_any {w : List Char} (hw : w.any isLineBreak = false) :
    splitOn isLineBreak w = [w] :=
  splitOn_of_none w fun c hc => by simpa using List.any_eq_false.1 hw c hc

theorem any_isLineBreak_eq {w : List Char} (h : '\n' ∉ w) : w.any isLineBreak = w.any isStray := by
  have hpoint : ∀ c ∈ w, isLineBreak c = isStray c := fun c hc =>
    isLineBreak_eq_isStray fun hn => h (hn ▸ hc)
  induction w with
  | nil => rfl
  | cons c w ih =>
    rw [List.any_cons, List.any_cons, hpoint c List.mem_cons_self,
      ih (fun hn => h (List.mem_cons_of_mem c hn)) fun d hd => hpoint d (List.mem_cons_of_mem c hd)]

/-- Line by line: the two readings of pieces without LF agree where none of them is astray. -/
theorem closeLines_eq_iff : ∀ {ps : List (List Char)}, ps ≠ [] → (∀ w ∈ ps, '\n' ∉ w) →
    ((∀ n : Nat, ((closeLines ps)[n]?).getD [] =
      ((sourceLines (join ['\n'] ps))[n]?).getD []) ↔ holdsStray (join ['\n'] ps) = false)
  | [w], _, h => by
    have hw : '\n' ∉ w := h w List.mem_cons_self
    rw [join, holdsStray_of_newline_not_mem hw, sourceLines, unifyReturns_of_newline_not_mem hw,
      ← any_isLineBreak_eq hw]
    cases hany : w.any isLineBreak with
    | false =>
      rw [splitOn_isLineBreak_of_not_any hany]
      refine iff_of_true (fun n => ?_) rfl
      rcases w with - | ⟨c, w⟩
      · cases n <;> rfl
      · rfl
    | true =>
      refine iff_of_false (fun hlines => ?_) (by simp)
      have hclose : ((closeLines [w])[0]?).getD [] = w := by
        cases w <;> rfl
      have hfirst := getD_splitOn_zero_ne hany []
      rw [List.append_nil, ← hlines 0, hclose] at hfirst
      exact hfirst rfl
  | w :: v :: ws, _, h => by
    have hw : '\n' ∉ w := h w List.mem_cons_self
    have hd : '\n' ∉ dropReturn w := fun hn => hw (mem_of_mem_dropReturn hn)
    have ih := closeLines_eq_iff (List.cons_ne_nil v ws) fun u hu => h u (List.mem_cons_of_mem w hu)
    have hjoin : join ['\n'] (w :: v :: ws) = w ++ '\n' :: join ['\n'] (v :: ws) := by
      rw [join, List.append_assoc, List.singleton_append]
      exact List.cons_ne_nil v ws
    have hclose : closeLines (w :: v :: ws) = dropReturn w :: closeLines (v :: ws) := rfl
    have hsource : sourceLines (w ++ '\n' :: join ['\n'] (v :: ws)) =
        splitOn isLineBreak (dropReturn w) ++ sourceLines (join ['\n'] (v :: ws)) := by
      rw [sourceLines, unifyReturns_append_newline _ hw, splitOn_append_break rfl]
      rfl
    rw [hjoin, holdsStray_append_newline hw, hsource, hclose, isAstray, ← any_isLineBreak_eq hd]
    cases hany : (dropReturn w).any isLineBreak with
    | false =>
      rw [splitOn_isLineBreak_of_not_any hany, Bool.false_or, ← ih]
      constructor
      · intro hlines n
        exact hlines (n + 1)
      · intro hlines n
        cases n with
        | zero => rfl
        | succ n => exact hlines n
    | true =>
      -- the first line tells the two apart already
      refine iff_of_false (fun hlines => ?_) (by simp)
      exact getD_splitOn_zero_ne hany _ (hlines 0).symm

/-- **The lines of a text are the lines of source** exactly if it holds no stray break. -/
theorem lines_eq_sourceLines_iff (text : List Char) :
    (∀ n : Nat, ((lines text)[n]?).getD [] = ((sourceLines text)[n]?).getD []) ↔
      holdsStray text = false := by
  have hpieces : ∀ w ∈ splitOn (· == '\n') text, '\n' ∉ w := fun w hw hn => by
    simpa using not_of_mem_splitOn text w hw '\n' hn
  have h := closeLines_eq_iff (splitOn_ne_nil _ text) hpieces
  rw [join_splitOn] at h
  exact h

end PolicyForge.Source
