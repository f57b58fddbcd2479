import PolicyForge.Proofs.Layout.Lines
/-!
# Normal layout of normal layout

A text in normal layout is meant to be laid out already.  One rule is not stable on its own output:
a line that touches a block comment loses one return at its end, so a line that ends with two of
them loses the second one the next time (`ScannedLine.LosesReturn`).  There is no other exception
(`normalize_normalize_iff`).
-/
namespace PolicyForge.Layout

open Text

/-! ## Lines that are laid twice -/

theorem dropReturn_dropReturn_iff (s : List Char) :
    dropReturn (dropReturn s) = dropReturn s ↔ ¬['\r', '\r'] <:+ s := by
  rcases dropReturn_cases s with h | ⟨h, hne⟩
  · generalize dropReturn s = t at h
    subst h
    rcases dropReturn_cases t with h' | ⟨h', hne'⟩
    · generalize dropReturn t = u at h'
      subst h'
      simp
    · rw [h']
      refine iff_of_true rfl fun hsuffix => hne' ?_
      obtain ⟨u, hu⟩ := hsuffix
      have hend : (u ++ ['\r']) ++ ['\r'] = t ++ ['\r'] := by rw [List.append_assoc]; exact hu
      rw [← List.append_cancel_right hend, List.getLast?_concat]
  · rw [h, h]
    refine iff_of_true rfl fun hsuffix => hne ?_
    obtain ⟨u, hu⟩ := hsuffix
    rw [← hu, show ['\r', '\r'] = ['\r'] ++ ['\r'] from rfl, ← List.append_assoc,
      List.getLast?_concat]

/-- Returns at the end stay when the blanks at the start go. -/
theorem dropReturn_trimStart_iff {s : List Char} (h : trimStart s ≠ []) :
    dropReturn (dropReturn (trimStart s)) = dropReturn (trimStart s) ↔ ¬['\r', '\r'] <:+ s := by
  obtain ⟨b, -, hb⟩ := exists_append_trimStart s
  have hd : dropReturn s = b ++ dropReturn (trimStart s) := by
    conv => lhs; rw [hb, dropReturn_append h]
  rw [← dropReturn_dropReturn_iff, hd, dropReturn_append (dropReturn_trimStart_ne_nil h),
    List.append_cancel_left_eq]

namespace ScannedLine

/-- A line loses a return each time it is laid: it starts or ends within a block comment or starts
within a string, no string is open at its end, and it ends with two returns. -/
def LosesReturn (l : ScannedLine) : Prop :=
  (l.start.carry ≠ .code ∨ l.stop.carry ≠ .code) ∧ l.stop.carry ≠ .verbatim ∧
    ['\r', '\r'] <:+ l.text

instance : DecidablePred LosesReturn := fun l => by unfold LosesReturn; infer_instance

theorem losesReturn_iff_of_open {l : ScannedLine} (ho : l.start.carry ≠ .code ∨ l.stop.carry ≠ .code)
    (hv : l.stop.carry ≠ .verbatim) : l.LosesReturn ↔ ['\r', '\r'] <:+ l.text :=
  ⟨fun h => h.2.2, fun h => ⟨ho, hv, h⟩⟩

/-- A line that opens a comment or a string holds more than blanks. -/
theorem allBlank_eq_false {l : ScannedLine} (hc : l.start.carry = .code)
    (hs : l.stop.carry ≠ .code) : allBlank l.text = false := by
  rw [Bool.eq_false_iff]
  intro hb
  exact hs (by rw [stop, LineEnd.next_of_allBlank hc hb, hc])

theorem laidText_laid_within {l : ScannedLine} (hc : l.start.carry ≠ .code) :
    l.laid.laidText = l.laidText ↔ ¬l.LosesReturn := by
  have hlaid : l.laid.laidText = lineBody l.laid.stop.carry l.laidText :=
    laidText_within (l := l.laid) hc
  rw [hlaid, stop_laid, laidText_within hc]
  by_cases hv : l.stop.carry = .verbatim
  · rw [hv]
    exact iff_of_true rfl fun h => h.2.1 hv
  · rw [lineBody_of_ne_verbatim hv, lineBody_of_ne_verbatim hv, losesReturn_iff_of_open (.inl hc) hv]
    exact dropReturn_dropReturn_iff l.text

theorem laidText_laid_opening {l : ScannedLine} (hc : l.start.carry = .code)
    (hs : l.stop.carry ≠ .code) : l.laid.laidText = l.laidText ↔ ¬l.LosesReturn := by
  have hlaid : l.laid.laidText = indentation (l.start.depth - leadingClosers (trim l.laidText)) ++
      lineBody l.laid.stop.carry (trimStart l.laidText) :=
    laidText_opening (l := l.laid) hc (by rw [stop_laid]; exact hs)
  rw [hlaid, stop_laid, trim_laidText, laidText_opening hc hs,
    trimStart_append_of_allBlank (allBlank_indentation _), trimStart_lineBody_trimStart,
    List.append_cancel_left_eq]
  by_cases hv : l.stop.carry = .verbatim
  · rw [hv]
    exact iff_of_true rfl fun h => h.2.1 hv
  · rw [lineBody_of_ne_verbatim hv, lineBody_of_ne_verbatim hv, losesReturn_iff_of_open (.inr hs) hv]
    refine dropReturn_trimStart_iff fun hn => ?_
    rw [trimStart_eq_nil, allBlank_eq_false hc hs] at hn
    exact Bool.false_ne_true hn

theorem laidText_laid_code {l : ScannedLine} (hc : l.start.carry = .code)
    (hs : l.stop.carry = .code) : l.laid.laidText = l.laidText := by
  by_cases hd : isDirective l.text = true
  · have hd' : isDirective l.laidText = true := (isDirective_laidText l).trans hd
    have hlaid : l.laid.laidText = trim l.laidText := laidText_directive (l := l.laid) hc hd'
    rw [hlaid, trim_laidText, laidText_directive hc hd]
  · rw [Bool.not_eq_true] at hd
    have hd' : isDirective l.laidText = false := (isDirective_laidText l).trans hd
    have hlaid : l.laid.laidText =
        indentation (l.start.depth - leadingClosers (trim l.laidText)) ++ trim l.laidText :=
      laidText_code (l := l.laid) hc hd' ((stop_laid l).symm ▸ hs)
    rw [hlaid, trim_laidText, laidText_code hc hd hs]

/-- **Laying a line a second time changes nothing** unless the line loses another return. -/
theorem laidText_laid_iff (l : ScannedLine) : l.laid.laidText = l.laidText ↔ ¬l.LosesReturn := by
  by_cases hc : l.start.carry = .code
  · by_cases hs : l.stop.carry = .code
    · refine iff_of_true (laidText_laid_code hc hs) fun h => ?_
      rcases h.1 with h | h
      · exact h hc
      · exact h hs
    · exact laidText_laid_opening hc hs
  · exact laidText_laid_within hc

end ScannedLine

/-! ## One step, taken twice -/

theorem ScannedLine.opens_laid (l : ScannedLine) : l.laid.opens = l.opens := by
  rw [opens, opens, stop_laid, show l.laid.text = l.laidText from rfl, isDirective_laidText,
    trim_laidText]

/-- **A laid line is taken as the line was**, unless it loses another return. -/
theorem step_laidText {p : Progress} {l : ScannedLine} (hl : l.start = p.lineEnd)
    (h : ¬l.LosesReturn) : step p l.laidText = step p l.text := by
  have hline : (⟨p.lineEnd, l.text⟩ : ScannedLine) = l := by rw [← hl]
  have hlaid : (⟨p.lineEnd, l.laidText⟩ : ScannedLine) = l.laid := by rw [← hl]; rfl
  have htwice : l.laid.laidText = l.laidText := (ScannedLine.laidText_laid_iff l).2 h
  have hnext : p.lineEnd.next l.laidText = p.lineEnd.next l.text := by
    rw [← hl]
    exact ScannedLine.stop_laid l
  have htrim : trim l.laidText = trim l.text := ScannedLine.trim_laidText l
  have hblank : allBlank l.laidText = allBlank l.text := by
    rw [Bool.eq_iff_iff, ← trim_eq_nil, ← trim_eq_nil, htrim]
  by_cases hc : p.carry = .code
  · by_cases hb : allBlank l.text = true
    · rw [step_blank hc hb, step_blank hc (hblank.trans hb)]
    · rw [Bool.not_eq_true] at hb
      have hgap : p.gap l.laidText = p.gap l.text := by rw [Progress.gap, Progress.gap, htrim]
      rw [step_code hc hb, step_code hc (hblank.trans hb), hline, hlaid, htwice, hgap, hnext,
        ScannedLine.opens_laid]
  · rw [step_within hc, step_within hc, hline, hlaid, htwice, hnext]

/-! ## Texts that are laid out twice -/

/-- What the second time over knows of empty lines: those that were not written are not met. -/
def Progress.settled (p : Progress) : Progress := { p with blankPending := false }

theorem Progress.any_of_blankPending_step {p : Progress} (line : List Char) :
    (step p line).2.blankPending = true → (step p line).2.any = true := by
  by_cases hc : p.carry = .code
  · by_cases hb : allBlank line = true
    · rw [step_blank hc hb]
      exact id
    · rw [step_code hc (by simpa using hb)]
      exact fun _ => rfl
  · rw [step_within hc]
    exact fun _ => rfl

/-- An empty line that was written brings back what was known before it. -/
theorem step_settled_nil {p : Progress} {line : List Char} (hc : p.carry = .code)
    (hany : p.blankPending = true → p.any = true) (hg : p.gap line = [[]]) :
    step p.settled [] = ([], p) := by
  have hp : p.blankPending = true := by
    by_contra hp
    simp [Progress.gap, hp] at hg
  rw [step_blank (p := p.settled) hc rfl]
  cases p
  simp_all [Progress.settled]

/-- **A layout that loses no return is laid out as it is.** -/
theorem layLines_layLines : ∀ (p : Progress) (lines : List (List Char)),
    (p.blankPending = true → p.any = true) →
    (∀ l ∈ scannedLines p.lineEnd lines, ¬l.LosesReturn) →
    layLines p.settled (layLines p lines) = layLines p lines
  | _, [], _, _ => rfl
  | p, line :: rest, hany, hkeep => by
    rw [scannedLines, ← lineEnd_step] at hkeep
    have hline : ¬(⟨p.lineEnd, line⟩ : ScannedLine).LosesReturn := hkeep _ List.mem_cons_self
    have ih := layLines_layLines (step p line).2 rest (Progress.any_of_blankPending_step line)
      fun l hl => hkeep l (List.mem_cons_of_mem _ hl)
    rw [layLines_cons]
    by_cases hc : p.carry = .code
    · by_cases hb : allBlank line = true
      · rw [step_blank hc hb] at ih ⊢
        exact ih
      · rw [Bool.not_eq_true] at hb
        have hstep := step_code hc hb
        have hsettled : (step p line).2.settled = (step p line).2 := by rw [hstep]; rfl
        rw [hsettled] at ih
        rcases p.gap_eq line with hg | hg
        · -- no empty line is written, and the second time none is met
          have hsame : step p.settled line = step p line := by
            rw [hstep, step_code (p := p.settled) hc hb, hg]
            rfl
          have hlaid := step_laidText (p := p.settled) (l := ⟨p.lineEnd, line⟩) rfl hline
          rw [show (step p line).1 = [_] by rw [hstep, hg]; rfl, List.singleton_append,
            layLines_cons, hlaid, hsame, ih, hstep, hg]
          rfl
        · -- the empty line is met the second time, and tells as much as those it stands for
          have hlaid := step_laidText (p := p) (l := ⟨p.lineEnd, line⟩) rfl hline
          rw [show (step p line).1 = [] :: [_] by rw [hstep, hg]; rfl, List.cons_append,
            layLines_cons, step_settled_nil hc hany hg, List.nil_append, List.singleton_append,
            layLines_cons, hlaid, ih, hstep, hg]
          rfl
    · have hstep : step p line = _ := step_within hc
      have hsettled : step p.settled line = ((step p line).1, (step p line).2.settled) := by
        rw [hstep, step_within (p := p.settled) hc]
        rfl
      have hlaid := step_laidText (p := p.settled) (l := ⟨p.lineEnd, line⟩) rfl hline
      rw [show (step p line).1 = [_] by rw [hstep], List.singleton_append, layLines_cons, hlaid,
        hsettled, ih, hstep]
      rfl

/-- A text of which nothing is written has one empty line in normal layout. -/
theorem layLines_sourceLines_normalizeChars {text : List Char}
    (h : ∀ l ∈ linesOf text, ¬l.LosesReturn) :
    layLines .start (sourceLines (normalizeChars text)) = layLines .start (sourceLines text) := by
  have htwice := layLines_layLines .start (sourceLines text) (fun hp => absurd hp (by decide)) h
  rw [sourceLines_normalizeChars]
  split
  · rename_i hnil
    rw [hnil]
    rfl
  · exact htwice

theorem not_losesReturn_of_not_isKept {l : ScannedLine} (h : l.isKept = false) : ¬l.LosesReturn := by
  simp only [ScannedLine.isKept, Bool.not_eq_false', Bool.and_eq_true, beq_iff_eq] at h
  rintro ⟨ho, -⟩
  rcases ho with ho | ho
  · exact ho h.1
  · exact ho (by rw [ScannedLine.stop, LineEnd.next_of_allBlank h.1 h.2, h.1])

/-- The lines that count are still those that count. -/
theorem filter_isKept_normalizeChars (text : List Char) :
    (linesOf (normalizeChars text)).filter ScannedLine.isKept =
      ((linesOf text).filter ScannedLine.isKept).map ScannedLine.laid := by
  have hgap : ∀ l : ScannedLine, ((!l.isGap) && l.isKept) = l.isKept := by
    intro l
    cases hk : l.isKept with
    | false => exact Bool.and_false _
    | true => rw [ScannedLine.isGap_eq_false hk]; rfl
  have hfilter := congrArg (List.filter ScannedLine.isKept) (linesOf_normalizeChars text)
  rw [List.filter_filter] at hfilter
  simp only [Bool.and_comm _ (!_), hgap] at hfilter
  rw [hfilter, List.filter_eq_self]
  intro l hl
  obtain ⟨k, hk, rfl⟩ := List.mem_map.1 hl
  rw [ScannedLine.isKept_laid]
  exact (List.mem_filter.1 hk).2

/-- **Normal layout is a fixed point of itself** exactly for the texts none of whose lines loses
another return each time it is laid. -/
theorem normalize_normalize_iff (s : String) :
    normalize (normalize s) = normalize s ↔ ∀ l ∈ linesOf s.toList, ¬l.LosesReturn := by
  rw [← String.toList_inj, toList_normalize, toList_normalize]
  constructor
  · intro heq l hl
    have hlines := linesOf_normalizeChars (normalizeChars s.toList)
    rw [heq, linesOf_normalizeChars, filter_isKept_normalizeChars, List.map_map] at hlines
    cases hk : l.isKept with
    | false => exact not_losesReturn_of_not_isKept hk
    | true =>
      have hlaid : l.laid = l.laid.laid :=
        List.map_inj_left.1 hlines l (List.mem_filter.2 ⟨hl, hk⟩)
      rw [← ScannedLine.laidText_laid_iff]
      exact (congrArg ScannedLine.text hlaid).symm
  · intro h
    rw [normalizeChars, layLines_sourceLines_normalizeChars h, ← normalizeChars]

/-- Of two returns at the end of a line that opens a comment, each time takes one. -/
theorem normalize_normalize_ne :
    normalize (normalize "/*\r\r\n*/") ≠ normalize "/*\r\r\n*/" := by
  decide

end PolicyForge.Layout
