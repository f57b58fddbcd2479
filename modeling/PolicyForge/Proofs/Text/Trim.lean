import Mathlib.Data.List.DropRight
import PolicyForge.Proofs.Text.Lines
import PolicyForge.Text.Blank
/-!
# Taking blanks off a text

What `trimStart`, `trimEnd`, `trim` and `dropReturn` take off, and that none of them has anything
left to take off its own result.  `dropEndWhile` walks from the left; read from the right it is
`List.rdropWhile` (`dropEndWhile_eq_rdropWhile`), and everything about the end of a text comes
from there.
-/
namespace PolicyForge.Text

/-! ## The end of a text -/

theorem dropEndWhile_append_of_all {p : Char → Bool} {t : List Char} (h : t.all p = true) :
    ∀ (s : List Char), dropEndWhile p (s ++ t) = dropEndWhile p s
  | [] => dropEndWhile_eq_nil.2 h
  | c :: s => by
    rw [List.cons_append, dropEndWhile, dropEndWhile, dropEndWhile_append_of_all h s]

theorem dropEndWhile_eq_rdropWhile (p : Char → Bool) (s : List Char) :
    dropEndWhile p s = s.rdropWhile p := by
  induction s using List.reverseRecOn with
  | nil => rfl
  | append_singleton s c ih =>
    by_cases hc : p c = true
    · rw [dropEndWhile_append_of_all (by simpa using hc), ih, List.rdropWhile_concat_pos p s c hc]
    · rw [List.rdropWhile_concat_neg p s c hc]
      clear ih
      induction s with
      | nil => simp [dropEndWhile, hc]
      | cons d s ih =>
        rw [List.cons_append, dropEndWhile, ih]
        cases h : s ++ [c] with
        | nil => simp at h
        | cons e t => rfl

theorem dropEndWhile_idem (p : Char → Bool) (s : List Char) :
    dropEndWhile p (dropEndWhile p s) = dropEndWhile p s := by
  simp only [dropEndWhile_eq_rdropWhile, List.rdropWhile_idempotent]

/-- What is taken off the end satisfies the condition throughout. -/
theorem exists_dropEndWhile_append (p : Char → Bool) (s : List Char) :
    ∃ t, t.all p = true ∧ s = dropEndWhile p s ++ t := by
  refine ⟨s.rtakeWhile p, List.all_eq_true.2 fun _ => List.mem_rtakeWhile_imp, ?_⟩
  rw [dropEndWhile_eq_rdropWhile, List.rdropWhile_append_rtakeWhile]

theorem exists_trimEnd_append (s : List Char) :
    ∃ t, allBlank t = true ∧ s = trimEnd s ++ t :=
  exists_dropEndWhile_append isBlank s

theorem trimEnd_append_of_allBlank {t : List Char} (h : allBlank t = true) (s : List Char) :
    trimEnd (s ++ t) = trimEnd s :=
  dropEndWhile_append_of_all h s

theorem trimEnd_idem (s : List Char) : trimEnd (trimEnd s) = trimEnd s := dropEndWhile_idem _ s

/-! ## The start of a text -/

theorem trimStart_append_of_allBlank {t : List Char} (h : allBlank t = true) (s : List Char) :
    trimStart (t ++ s) = trimStart s :=
  List.dropWhile_append_of_pos fun c hc => List.all_eq_true.1 h c hc

theorem trimStart_cons_of_not_blank {c : Char} (h : isBlank c = false) (s : List Char) :
    trimStart (c :: s) = c :: s := by
  simp [trimStart, h]

/-- A text is nothing but blanks, or it has a first character that is none. -/
theorem trimStart_cases (s : List Char) :
    allBlank s = true ∧ trimStart s = [] ∨
      ∃ c t, isBlank c = false ∧ trimStart s = c :: t := by
  cases h : trimStart s with
  | nil => exact .inl ⟨by simpa [allBlank, trimStart] using h, rfl⟩
  | cons c t =>
    have hc := List.head?_dropWhile_not isBlank s
    rw [show s.dropWhile isBlank = c :: t from h] at hc
    exact .inr ⟨c, t, by simpa using hc, rfl⟩

theorem trimStart_eq_nil {s : List Char} : trimStart s = [] ↔ allBlank s = true := by
  simp [trimStart, allBlank]

theorem trimStart_idem (s : List Char) : trimStart (trimStart s) = trimStart s :=
  List.dropWhile_idempotent isBlank s

theorem exists_append_trimStart (s : List Char) :
    ∃ t, allBlank t = true ∧ s = t ++ trimStart s :=
  ⟨s.takeWhile isBlank, List.all_takeWhile, List.takeWhile_append_dropWhile.symm⟩

theorem trimEnd_cons_of_not_blank {c : Char} (h : isBlank c = false) (s : List Char) :
    trimEnd (c :: s) = c :: trimEnd s := by
  rw [trimEnd, dropEndWhile, ← trimEnd]
  cases trimEnd s with
  | nil => simp [h]
  | cons d t => rfl

theorem trimEnd_append {t : List Char} (h : allBlank t = false) :
    ∀ (s : List Char), trimEnd (s ++ t) = s ++ trimEnd t
  | [] => rfl
  | c :: s => by
    have hne : trimEnd t ≠ [] := fun hn => by
      have := dropEndWhile_eq_nil.1 hn
      rw [allBlank, this] at h
      cases h
    rw [List.cons_append, trimEnd, dropEndWhile, ← trimEnd, trimEnd_append h s]
    cases hs : s ++ trimEnd t with
    | nil => exact absurd (List.append_eq_nil_iff.1 hs).2 hne
    | cons d u => simp [hs]

/-- The two ends are independent of each other. -/
theorem trimStart_trimEnd (s : List Char) : trimStart (trimEnd s) = trimEnd (trimStart s) := by
  obtain ⟨b, hb, hs⟩ := exists_append_trimStart s
  rcases trimStart_cases s with ⟨hall, hnil⟩ | ⟨c, t, hc, hct⟩
  · rw [hnil, show trimEnd s = [] from dropEndWhile_eq_nil.2 hall]
    rfl
  · have hne : allBlank (c :: t) = false := by simp [allBlank, hc]
    rw [hct] at hs ⊢
    rw [hs, trimEnd_append hne, trimStart_append_of_allBlank hb, trimEnd_cons_of_not_blank hc,
      trimStart_cons_of_not_blank hc]

/-! ## Both ends -/

theorem trim_trimStart (s : List Char) : trim (trimStart s) = trim s := by
  rw [trim, trimStart_idem, ← trim]

theorem trim_trimEnd (s : List Char) : trim (trimEnd s) = trim s := by
  rw [trim, trimStart_trimEnd, trimEnd_idem, ← trim]

theorem trim_idem (s : List Char) : trim (trim s) = trim s := by
  calc trim (trim s) = trim (trimStart s) := trim_trimEnd (trimStart s)
    _ = trim s := trim_trimStart s

theorem trim_append_of_allBlank {t : List Char} (h : allBlank t = true) (s : List Char) :
    trim (s ++ t) = trim s := by
  rw [← trim_trimEnd (s ++ t), trimEnd_append_of_allBlank h, trim_trimEnd]

theorem trim_append_of_allBlank_left {t : List Char} (h : allBlank t = true) (s : List Char) :
    trim (t ++ s) = trim s := by
  rw [← trim_trimStart (t ++ s), trimStart_append_of_allBlank h, trim_trimStart]

theorem mem_of_mem_trimStart {c : Char} {s : List Char} (h : c ∈ trimStart s) : c ∈ s := by
  obtain ⟨b, -, hs⟩ := exists_append_trimStart s
  rw [hs]
  exact List.mem_append_right b h

theorem mem_of_mem_trim {c : Char} {s : List Char} (h : c ∈ trim s) : c ∈ s := by
  obtain ⟨t, -, hs⟩ := exists_trimEnd_append (trimStart s)
  apply mem_of_mem_trimStart
  rw [hs]
  exact List.mem_append_left t h

theorem allBlank_replicate_space (n : Nat) : allBlank (List.replicate n ' ') = true := by
  simp [allBlank, List.all_replicate, isBlank]

/-! ## The return at the end of a line -/

theorem dropReturn_append_return : ∀ (s : List Char), dropReturn (s ++ ['\r']) = s
  | [] => rfl
  | c :: s => by
    rw [List.cons_append, dropReturn.eq_3 _ _ (by simp), dropReturn_append_return s]

theorem dropReturn_append_of_ne {c : Char} (h : c ≠ '\r') :
    ∀ (s : List Char), dropReturn (s ++ [c]) = s ++ [c]
  | [] => by simp [dropReturn, h]
  | d :: s => by
    rw [List.cons_append, dropReturn.eq_3 _ _ (by simp), dropReturn_append_of_ne h s]

/-- A line either ends with a return, which is taken off, or is left as it is. -/
theorem dropReturn_cases (s : List Char) :
    s = dropReturn s ++ ['\r'] ∨ dropReturn s = s ∧ s.getLast? ≠ some '\r' := by
  induction s using List.reverseRecOn with
  | nil => exact .inr ⟨rfl, by simp⟩
  | append_singleton s c _ =>
    by_cases h : c = '\r'
    · subst h
      exact .inl (by rw [dropReturn_append_return])
    · exact .inr ⟨dropReturn_append_of_ne h s, by simpa using h⟩

theorem mem_of_mem_dropReturn {c : Char} {s : List Char} (h : c ∈ dropReturn s) : c ∈ s := by
  rcases dropReturn_cases s with hs | ⟨hs, -⟩
  · rw [hs]
    exact List.mem_append_left _ h
  · rw [← hs]
    exact h

theorem newline_not_mem_of_mem_closeLines : ∀ {ps : List (List Char)}, (∀ v ∈ ps, '\n' ∉ v) →
    ∀ {w : List Char}, w ∈ closeLines ps → '\n' ∉ w
  | [], _, _, hw => by cases hw
  | [v], h, w, hw => by
    rw [closeLines] at hw
    split at hw
    · cases hw
    · rw [List.mem_singleton.1 hw]
      exact h v List.mem_cons_self
  | v :: u :: ps, h, w, hw => by
    have hclose : closeLines (v :: u :: ps) = dropReturn v :: closeLines (u :: ps) := rfl
    rw [hclose] at hw
    rcases List.mem_cons.1 hw with rfl | hw
    · exact fun hn => h v List.mem_cons_self (mem_of_mem_dropReturn hn)
    · exact newline_not_mem_of_mem_closeLines (fun t ht => h t (List.mem_cons_of_mem v ht)) hw

/-- No line holds an LF. -/
theorem newline_not_mem_of_mem_lines {s w : List Char} (hw : w ∈ lines s) : '\n' ∉ w := by
  refine newline_not_mem_of_mem_closeLines (fun v hv hn => ?_) hw
  simpa using not_of_mem_splitOn s v hv '\n' hn

theorem trim_dropReturn (s : List Char) : trim (dropReturn s) = trim s := by
  rcases dropReturn_cases s with h | ⟨h, -⟩
  · conv => rhs; rw [h, trim_append_of_allBlank (by decide)]
  · rw [h]

/-- A return at the end stays out of the way of what is taken off the start. -/
theorem dropReturn_append {t : List Char} (h : t ≠ []) :
    ∀ (s : List Char), dropReturn (s ++ t) = s ++ dropReturn t
  | [] => rfl
  | c :: s => by
    have hne : s ++ t ≠ [] := fun hn => h (List.append_eq_nil_iff.1 hn).2
    rw [List.cons_append, dropReturn.eq_3 _ _ (by simpa using fun _ => hne), dropReturn_append h s]
    rfl

theorem dropReturn_cons_of_not_blank {c : Char} (h : isBlank c = false) (s : List Char) :
    dropReturn (c :: s) = c :: dropReturn s := by
  by_cases hs : s = []
  · subst hs
    exact dropReturn_append_of_ne (ne_of_holds (p := isBlank) (by decide) h).symm []
  · exact dropReturn_append hs [c]

theorem trimStart_dropReturn_trimStart (s : List Char) :
    trimStart (dropReturn (trimStart s)) = dropReturn (trimStart s) := by
  rcases trimStart_cases s with ⟨-, hs⟩ | ⟨c, t, hc, hs⟩
  · rw [hs]
    rfl
  · rw [hs, dropReturn_cons_of_not_blank hc, trimStart_cons_of_not_blank hc]

theorem dropReturn_trimStart_ne_nil {s : List Char} (h : trimStart s ≠ []) :
    dropReturn (trimStart s) ≠ [] := by
  rcases trimStart_cases s with ⟨-, hs⟩ | ⟨c, t, hc, hs⟩
  · exact absurd hs h
  · rw [hs, dropReturn_cons_of_not_blank hc]
    exact List.cons_ne_nil c _

end PolicyForge.Text
