import PolicyForge.Layout.Normalize
import PolicyForge.Proofs.Layout.Lexer
import PolicyForge.Proofs.Text.Lines
/-!
# Lines and the state they start in

A text is read as the lines of `sourceLines`, each with what is open where it starts; a line of
code that starts with `#` is a directive and is not scanned.  `ScannedLine.laid` is what becomes of
one line under `step`, and `scannedLines_layLines` says that a whole text is laid out line by line:
but for empty lines of code, the lines written are the lines kept, each of them laid, and each in
the state in which it started before.
-/
namespace PolicyForge.Layout

open Text

/-! ## What is taken off a line is nothing to the scan -/

theorem scan_trimEnd (c : Carry) (depth : Nat) (s : List Char) :
    scan c depth (trimEnd s) = scan c depth s := by
  obtain ⟨t, ht, hs⟩ := exists_trimEnd_append s
  conv => rhs; rw [hs, scan_append_of_allBlank ht]

theorem scan_dropReturn (c : Carry) (depth : Nat) (s : List Char) :
    scan c depth (dropReturn s) = scan c depth s := by
  rcases dropReturn_cases s with h | ⟨h, -⟩
  · conv => rhs; rw [h, scan_append_of_allBlank (by decide)]
  · rw [h]

theorem lineBody_of_ne_verbatim {c : Carry} (h : c ≠ .verbatim) (line : List Char) :
    lineBody c line = dropReturn line := by
  cases c with
  | verbatim => exact absurd rfl h
  | _ => rfl

theorem scan_lineBody (carry c : Carry) (depth : Nat) (s : List Char) :
    scan c depth (lineBody carry s) = scan c depth s := by
  cases carry
  · exact scan_dropReturn c depth s
  · exact scan_dropReturn c depth s
  · rfl

theorem scan_code_trimStart (depth : Nat) (s : List Char) :
    scan .code depth (trimStart s) = scan .code depth s := by
  obtain ⟨t, ht, hs⟩ := exists_append_trimStart s
  conv => rhs; rw [hs, scan_code_append_of_allBlank ht]

theorem allBlank_indentation (n : Nat) : allBlank (indentation n) = true :=
  allBlank_replicate_space (4 * n)

theorem trim_lineBody (c : Carry) (s : List Char) : trim (lineBody c s) = trim s := by
  cases c
  · exact trim_dropReturn s
  · exact trim_dropReturn s
  · rfl

theorem mem_of_mem_lineBody {carry : Carry} {c : Char} {s : List Char}
    (h : c ∈ lineBody carry s) : c ∈ s := by
  cases carry
  · exact mem_of_mem_dropReturn h
  · exact mem_of_mem_dropReturn h
  · exact h

/-- What is left of a line of code starts where the line did. -/
theorem trimStart_lineBody_trimStart (c : Carry) (s : List Char) :
    trimStart (lineBody c (trimStart s)) = lineBody c (trimStart s) := by
  by_cases hv : c = .verbatim
  · rw [hv]
    exact trimStart_idem s
  · rw [lineBody_of_ne_verbatim hv]
    exact trimStart_dropReturn_trimStart s

/-! ## Lines -/

/-- Whether a line of code is a directive. -/
def isDirective (line : List Char) : Bool := startsWith '#' (trim line)

/-- What is open after a line; a directive is not scanned. -/
def LineEnd.next (e : LineEnd) (line : List Char) : LineEnd :=
  if e.carry = .code ∧ isDirective line = true then e else scan e.carry e.depth line

/-- A line, and what is open where it starts. -/
structure ScannedLine where
  start : LineEnd
  text : List Char
  deriving DecidableEq, Repr

def ScannedLine.stop (l : ScannedLine) : LineEnd := l.start.next l.text

/-- Lines with what is open where each of them starts. -/
def scannedLines : LineEnd → List (List Char) → List ScannedLine
  | _, [] => []
  | e, line :: rest => ⟨e, line⟩ :: scannedLines (e.next line) rest

def LineEnd.fresh : LineEnd := ⟨.code, 0⟩

/-- The lines of a text with what is open where each of them starts. -/
def linesOf (text : List Char) : List ScannedLine := scannedLines .fresh (sourceLines text)

theorem map_text_scannedLines : ∀ (e : LineEnd) (lines : List (List Char)),
    (scannedLines e lines).map ScannedLine.text = lines
  | _, [] => rfl
  | e, line :: rest => by
    rw [scannedLines, List.map_cons, map_text_scannedLines (e.next line) rest]

/-- What is open where the next line starts. -/
def Progress.lineEnd (p : Progress) : LineEnd := ⟨p.carry, p.depth⟩

namespace ScannedLine

/-- Whether a line counts: it holds more than blanks, or it starts within a string or a comment. -/
def isKept (l : ScannedLine) : Bool := !(l.start.carry == .code && allBlank l.text)

/-- Whether a line is an empty line of code. -/
def isGap (l : ScannedLine) : Bool := l.start.carry == .code && l.text.isEmpty

/-- The text that is written for a line that counts. -/
def laidText (l : ScannedLine) : List Char :=
  match l.start.carry with
  | .code =>
    if isDirective l.text then trim l.text
    else
      indentation (l.start.depth - leadingClosers (trim l.text)) ++
        match l.stop.carry with
        | .code => trim l.text
        | c => lineBody c (trimStart l.text)
  | _ => lineBody l.stop.carry l.text

/-- The line that is written for a line that counts. -/
def laid (l : ScannedLine) : ScannedLine := ⟨l.start, l.laidText⟩

@[simp] theorem start_laid (l : ScannedLine) : l.laid.start = l.start := rfl

theorem laidText_directive {l : ScannedLine} (hc : l.start.carry = .code)
    (hd : isDirective l.text = true) : l.laidText = trim l.text := by
  simp [laidText, hc, hd]

theorem laidText_code {l : ScannedLine} (hc : l.start.carry = .code)
    (hd : isDirective l.text = false) (hs : l.stop.carry = .code) :
    l.laidText = indentation (l.start.depth - leadingClosers (trim l.text)) ++ trim l.text := by
  simp [laidText, hc, hd, hs]

theorem laidText_within {l : ScannedLine} (hc : l.start.carry ≠ .code) :
    l.laidText = lineBody l.stop.carry l.text := by
  cases h : l.start.carry <;> simp_all [laidText]

theorem stop_directive {l : ScannedLine} (hc : l.start.carry = .code)
    (hd : isDirective l.text = true) : l.stop = l.start := by
  simp [stop, LineEnd.next, hc, hd]

/-- A directive opens nothing. -/
theorem isDirective_eq_false {l : ScannedLine} (hc : l.start.carry = .code)
    (hs : l.stop.carry ≠ .code) : isDirective l.text = false := by
  rw [Bool.eq_false_iff]
  intro hd
  exact hs (by rw [stop_directive hc hd, hc])

theorem laidText_opening {l : ScannedLine} (hc : l.start.carry = .code)
    (hs : l.stop.carry ≠ .code) :
    l.laidText = indentation (l.start.depth - leadingClosers (trim l.text)) ++
      lineBody l.stop.carry (trimStart l.text) := by
  have hd := isDirective_eq_false hc hs
  cases h : l.stop.carry <;> simp_all [laidText]

theorem stop_scan {l : ScannedLine} (h : ¬(l.start.carry = .code ∧ isDirective l.text = true)) :
    l.stop = scan l.start.carry l.start.depth l.text := by
  rw [stop, LineEnd.next, if_neg h]

/-- **Laying a line changes nothing but blanks at its ends.** -/
theorem trim_laidText (l : ScannedLine) : trim l.laidText = trim l.text := by
  by_cases hc : l.start.carry = .code
  · by_cases hd : isDirective l.text = true
    · rw [laidText_directive hc hd, trim_idem]
    · rw [Bool.not_eq_true] at hd
      by_cases hs : l.stop.carry = .code
      · rw [laidText_code hc hd hs, trim_append_of_allBlank_left (allBlank_indentation _), trim_idem]
      · rw [laidText_opening hc hs, trim_append_of_allBlank_left (allBlank_indentation _),
          trim_lineBody, trim_trimStart]
  · rw [laidText_within hc, trim_lineBody]

theorem isDirective_laidText (l : ScannedLine) : isDirective l.laidText = isDirective l.text := by
  rw [isDirective, trim_laidText, ← isDirective]

/-- **A line ends as it did when it is laid.** -/
theorem stop_laid (l : ScannedLine) : l.laid.stop = l.stop := by
  by_cases hc : l.start.carry = .code
  · by_cases hd : isDirective l.text = true
    · rw [stop_directive hc hd, stop_directive (l := l.laid) hc ((isDirective_laidText l).trans hd)]
      rfl
    · have hd' : ¬isDirective l.laid.text = true := by
        rw [show l.laid.text = l.laidText from rfl, isDirective_laidText]
        exact hd
      rw [stop_scan (fun h => hd h.2), stop_scan (l := l.laid) (fun h => hd' h.2), start_laid, hc,
        show l.laid.text = l.laidText from rfl]
      rw [Bool.not_eq_true] at hd
      by_cases hs : l.stop.carry = .code
      · rw [laidText_code hc hd hs, scan_code_append_of_allBlank (allBlank_indentation _), trim,
          scan_trimEnd, scan_code_trimStart]
      · rw [laidText_opening hc hs, scan_code_append_of_allBlank (allBlank_indentation _),
          scan_lineBody, scan_code_trimStart]
  · rw [stop_scan (fun h => hc h.1), stop_scan (l := l.laid) (fun h => hc h.1), start_laid,
      show l.laid.text = l.laidText from rfl, laidText_within hc, scan_lineBody]

/-- A line that counts is laid to a line that counts. -/
theorem isKept_laid (l : ScannedLine) : l.laid.isKept = l.isKept := by
  have : allBlank l.laid.text = allBlank l.text := by
    rw [Bool.eq_iff_iff, ← trim_eq_nil, ← trim_eq_nil, show l.laid.text = l.laidText from rfl,
      trim_laidText]
  rw [isKept, isKept, this, start_laid]

theorem text_of_isGap {l : ScannedLine} (h : l.isGap = true) : l.text = [] := by
  simp only [isGap, Bool.and_eq_true, List.isEmpty_iff] at h
  exact h.2

theorem isGap_eq_false {l : ScannedLine} (h : l.isKept = true) : l.isGap = false := by
  rcases hc : l.start.carry == .code <;> simp_all [isKept, isGap]
  intro hn
  rw [hn] at h
  simp [allBlank] at h

end ScannedLine

/-! ## One step -/

/-- The empty line that is written before a line of code, if one is. -/
def Progress.gap (p : Progress) (line : List Char) : List (List Char) :=
  if p.blankPending && !p.afterOpen && !startsWith '\x7d' (trim line) then [[]] else []

theorem Progress.gap_eq (p : Progress) (line : List Char) : p.gap line = [] ∨ p.gap line = [[]] := by
  unfold gap
  split
  · exact .inr rfl
  · exact .inl rfl

/-- Whether a line of code opens a brace at its end. -/
def ScannedLine.opens (l : ScannedLine) : Bool :=
  !isDirective l.text && (l.stop.carry == .code && endsWith '\x7b' (trim l.text))

theorem step_blank {p : Progress} {line : List Char} (hc : p.carry = .code)
    (hb : allBlank line = true) : step p line = ([], { p with blankPending := p.any }) := by
  simp [step, hc, trim_eq_nil.2 hb]

theorem step_code {p : Progress} {line : List Char} (hc : p.carry = .code)
    (hb : allBlank line = false) :
    step p line = (p.gap line ++ [(⟨p.lineEnd, line⟩ : ScannedLine).laidText],
      ⟨(p.lineEnd.next line).carry, (p.lineEnd.next line).depth, false,
        (⟨p.lineEnd, line⟩ : ScannedLine).opens, true⟩) := by
  have hne : (trim line).isEmpty = false := by
    rw [Bool.eq_false_iff, ne_eq, List.isEmpty_iff, trim_eq_nil, hb]
    simp
  by_cases hd : isDirective line = true
  · have hd' : startsWith '#' (trim line) = true := hd
    simp only [step, hc, hne, hd', Progress.gap, ScannedLine.laidText, ScannedLine.opens,
      Progress.lineEnd, LineEnd.next, hd, and_self, if_true]
    rfl
  · have hd' : startsWith '#' (trim line) = false := by simpa [isDirective] using hd
    have hscan : scan .code p.depth (trimStart line) = scan .code p.depth line :=
      scan_code_trimStart p.depth line
    simp only [step, hc, hne, hd', Progress.gap, ScannedLine.laidText, ScannedLine.opens,
      ScannedLine.stop, Progress.lineEnd, LineEnd.next, hd, hscan, Bool.false_eq_true, and_false,
      if_false, show trimEnd (trimStart line) = trim line from rfl]
    cases h : (scan .code p.depth line).carry <;> rfl

theorem step_within {p : Progress} {line : List Char} (hc : p.carry ≠ .code) :
    step p line = ([(⟨p.lineEnd, line⟩ : ScannedLine).laidText],
      ⟨(p.lineEnd.next line).carry, (p.lineEnd.next line).depth, p.blankPending, false, true⟩) := by
  have hc' : p.lineEnd.carry ≠ .code := hc
  rw [ScannedLine.laidText_within (l := ⟨p.lineEnd, line⟩) hc', ScannedLine.stop, LineEnd.next,
    if_neg fun h => hc' h.1]
  unfold step
  cases h : p.carry with
  | code => exact absurd h hc
  | blockComment => simp [Progress.lineEnd, h]
  | verbatim => simp [Progress.lineEnd, h]

theorem LineEnd.next_of_allBlank {e : LineEnd} {line : List Char} (hc : e.carry = .code)
    (hb : allBlank line = true) : e.next line = e := by
  have hd : isDirective line = false := by simp [isDirective, trim_eq_nil.2 hb, startsWith]
  rw [LineEnd.next, if_neg (by simp [hd]), hc]
  have := scan_append_of_allBlank hb .code e.depth []
  rw [List.nil_append] at this
  rw [this, ← hc]
  rfl

theorem lineEnd_step (p : Progress) (line : List Char) :
    (step p line).2.lineEnd = p.lineEnd.next line := by
  by_cases hc : p.carry = .code
  · by_cases hb : allBlank line = true
    · rw [step_blank hc hb, LineEnd.next_of_allBlank hc hb]
      rfl
    · rw [step_code hc (by simpa using hb)]
      rfl
  · rw [step_within hc]
    rfl

/-! ## All lines -/

/-- Empty lines of code between other lines change nothing but their number. -/
theorem filter_scannedLines_gap {e : LineEnd} (hc : e.carry = .code) (rest : List (List Char)) :
    (scannedLines e ([] :: rest)).filter (fun l => !l.isGap) =
      (scannedLines e rest).filter (fun l => !l.isGap) := by
  rw [scannedLines, LineEnd.next_of_allBlank hc rfl, List.filter_cons_of_neg]
  simp [ScannedLine.isGap, hc]

/-- A laid line stands where it stood, and so does what follows it. -/
theorem filter_scannedLines_laid {l : ScannedLine} (hk : l.isKept = true)
    (rest : List (List Char)) :
    (scannedLines l.start (l.laidText :: rest)).filter (fun l => !l.isGap) =
      l.laid :: (scannedLines l.stop rest).filter (fun l => !l.isGap) := by
  have hgap : l.laid.isGap = false :=
    ScannedLine.isGap_eq_false ((ScannedLine.isKept_laid l).trans hk)
  have hstop : l.start.next l.laidText = l.stop := ScannedLine.stop_laid l
  have hkeep : (!(⟨l.start, l.laidText⟩ : ScannedLine).isGap) = true := by
    show (!l.laid.isGap) = true
    rw [hgap]
    rfl
  rw [scannedLines, hstop]
  exact List.filter_cons_of_pos hkeep

theorem layLines_cons (p : Progress) (line : List Char) (rest : List (List Char)) :
    layLines p (line :: rest) = (step p line).1 ++ layLines (step p line).2 rest := rfl

/-- **A text is laid out line by line.**  But for empty lines of code, the lines that are written
are the lines that count, each of them laid, in the state in which it started. -/
theorem scannedLines_layLines : ∀ (p : Progress) (lines : List (List Char)),
    (scannedLines p.lineEnd (layLines p lines)).filter (fun l => !l.isGap) =
      ((scannedLines p.lineEnd lines).filter ScannedLine.isKept).map ScannedLine.laid
  | _, [] => rfl
  | p, line :: rest => by
    have ih := scannedLines_layLines (step p line).2 rest
    rw [lineEnd_step] at ih
    rw [layLines_cons, scannedLines]
    by_cases hc : p.carry = .code
    · by_cases hb : allBlank line = true
      · have hskip : (⟨p.lineEnd, line⟩ : ScannedLine).isKept = false := by
          simp [ScannedLine.isKept, Progress.lineEnd, hc, hb]
        rw [LineEnd.next_of_allBlank hc hb] at ih ⊢
        rw [List.filter_cons_of_neg (by simp [hskip]), ← ih, step_blank hc hb, List.nil_append]
      · rw [Bool.not_eq_true] at hb
        have hk : (⟨p.lineEnd, line⟩ : ScannedLine).isKept = true := by
          simp [ScannedLine.isKept, hb]
        rw [List.filter_cons_of_pos hk, List.map_cons, ← ih]
        refine Eq.trans ?_ (filter_scannedLines_laid hk _)
        rw [show (step p line).1 = p.gap line ++ [_] by rw [step_code hc hb], List.append_assoc]
        rcases p.gap_eq line with hg | hg
        · rw [hg]
          rfl
        · rw [hg]
          exact filter_scannedLines_gap hc _
    · have hk : (⟨p.lineEnd, line⟩ : ScannedLine).isKept = true := by
        simp [ScannedLine.isKept, Progress.lineEnd, hc]
      rw [List.filter_cons_of_pos hk, List.map_cons, ← ih]
      refine Eq.trans ?_ (filter_scannedLines_laid hk _)
      rw [show (step p line).1 = [_] by rw [step_within hc]]
      rfl

/-! ## The lines of a text in normal layout -/

theorem not_mem_laidText {l : ScannedLine} {c : Char} (hc : c ≠ ' ') (h : c ∉ l.text) :
    c ∉ l.laidText := by
  have hind : ∀ n, c ∉ indentation n := fun n hm => hc (List.eq_of_mem_replicate hm)
  have htrim : c ∉ trim l.text := fun hm => h (mem_of_mem_trim hm)
  by_cases hs : l.start.carry = .code
  · by_cases hd : isDirective l.text = true
    · rw [ScannedLine.laidText_directive hs hd]
      exact htrim
    · rw [Bool.not_eq_true] at hd
      by_cases he : l.stop.carry = .code
      · rw [ScannedLine.laidText_code hs hd he, List.mem_append]
        exact not_or.2 ⟨hind _, htrim⟩
      · rw [ScannedLine.laidText_opening hs he, List.mem_append]
        exact not_or.2 ⟨hind _, fun hm => h (mem_of_mem_trimStart (mem_of_mem_lineBody hm))⟩
  · rw [ScannedLine.laidText_within hs]
    exact fun hm => h (mem_of_mem_lineBody hm)

theorem newline_not_mem_layLines : ∀ (p : Progress) (lines : List (List Char)),
    (∀ line ∈ lines, '\n' ∉ line) → ∀ line ∈ layLines p lines, '\n' ∉ line
  | _, [], _, _, hm => by cases hm
  | p, line :: rest, h, written, hm => by
    have hline : '\n' ∉ (⟨p.lineEnd, line⟩ : ScannedLine).laidText :=
      not_mem_laidText (by decide) (h line List.mem_cons_self)
    rw [layLines_cons, List.mem_append] at hm
    rcases hm with hm | hm
    · by_cases hc : p.carry = .code
      · by_cases hb : allBlank line = true
        · rw [step_blank hc hb] at hm
          cases hm
        · rw [step_code hc (by simpa using hb), List.mem_append, List.mem_singleton] at hm
          rcases hm with hm | rfl
          · rcases p.gap_eq line with hg | hg <;> rw [hg] at hm
            · cases hm
            · rw [List.mem_singleton.1 hm]
              exact List.not_mem_nil
          · exact hline
      · rw [step_within hc, List.mem_singleton] at hm
        rw [hm]
        exact hline
    · exact newline_not_mem_layLines _ rest (fun l hl => h l (List.mem_cons_of_mem _ hl)) written hm

theorem newline_not_mem_sourceLines {text line : List Char} (h : line ∈ sourceLines text) :
    '\n' ∉ line := by
  have hmem : line ∈ splitOn (· == '\n') text := by
    unfold sourceLines at h
    dsimp only at h
    split at h
    · exact List.dropLast_subset _ h
    · exact h
  intro hn
  simpa using not_of_mem_splitOn text line hmem '\n' hn

/-- The lines of a text whose lines are all ended. -/
theorem sourceLines_join {lines : List (List Char)} (hne : lines ≠ [])
    (h : ∀ line ∈ lines, '\n' ∉ line) : sourceLines (join ['\n'] lines ++ ['\n']) = lines := by
  rw [join_append_sep '\n' hne, sourceLines, splitOn_flatMap_ended lines h]
  simp

/-- The lines of a text in normal layout are those that were written; if none was, an empty one. -/
theorem sourceLines_normalizeChars (text : List Char) :
    sourceLines (normalizeChars text) =
      match layLines .start (sourceLines text) with
      | [] => [[]]
      | lines => lines := by
  have hnl := newline_not_mem_layLines .start (sourceLines text)
    fun line hline => newline_not_mem_sourceLines hline
  rw [normalizeChars]
  cases hl : layLines .start (sourceLines text) with
  | nil => rfl
  | cons line rest => exact sourceLines_join (List.cons_ne_nil _ _) (by rw [← hl]; exact hnl)

theorem normalizeChars_ended (text : List Char) :
    normalizeChars text = (sourceLines (normalizeChars text)).flatMap (· ++ ['\n']) := by
  rw [sourceLines_normalizeChars, normalizeChars]
  cases hl : layLines .start (sourceLines text) with
  | nil => rfl
  | cons line rest => exact join_append_sep '\n' (List.cons_ne_nil line rest)

/-- **The lines of a text in normal layout**, but for empty lines of code, are the lines of the
text that count, each of them laid. -/
theorem linesOf_normalizeChars (text : List Char) :
    (linesOf (normalizeChars text)).filter (fun l => !l.isGap) =
      ((linesOf text).filter ScannedLine.isKept).map ScannedLine.laid := by
  have hlay : (scannedLines .fresh (layLines .start (sourceLines text))).filter (fun l => !l.isGap) =
      ((linesOf text).filter ScannedLine.isKept).map ScannedLine.laid :=
    scannedLines_layLines .start (sourceLines text)
  rw [← hlay, linesOf, sourceLines_normalizeChars]
  split
  · rename_i hnil
    rw [hnil]
    rfl
  · rfl

/-! ## The start of a text in normal layout -/

theorem lineBody_cons_of_not_blank {c : Char} (hc : isBlank c = false) (carry : Carry) (s : List Char) :
    ∃ w, lineBody carry (c :: s) = c :: w := by
  cases carry <;> simp [lineBody, dropReturn_cons_of_not_blank hc]

theorem step_start {c : Char} (hc : isBlank c = false) (s : List Char) :
    ∃ w p, step .start (c :: s) = ([c :: w], p) := by
  have htrim : trim (c :: s) = c :: trimEnd s := by
    rw [trim, trimStart_cons_of_not_blank hc, trimEnd_cons_of_not_blank hc]
  simp only [step, Progress.start, htrim, trimStart_cons_of_not_blank hc, List.isEmpty_cons,
    Bool.false_eq_true, if_false, Bool.false_and, List.nil_append, Nat.zero_sub, indentation,
    Nat.mul_zero, List.replicate_zero]
  split
  · exact ⟨_, _, rfl⟩
  · split
    · exact ⟨_, _, by rw [trimEnd_cons_of_not_blank hc]⟩
    · obtain ⟨w, hw⟩ := lineBody_cons_of_not_blank hc (scan .code 0 (c :: s)).carry s
      exact ⟨w, _, by rw [hw]⟩

/-- A text that does not start with a blank starts with the same character in normal layout. -/
theorem head?_normalizeChars {c : Char} (hc : isBlank c = false) (s : List Char) :
    (normalizeChars (c :: s)).head? = some c := by
  have hbreak : (c == '\n') = false :=
    beq_eq_false_iff_ne.2 (ne_of_holds (p := isBlank) (by decide) hc).symm
  obtain ⟨first, rest, hpieces⟩ : ∃ first rest,
      splitOn (· == '\n') (c :: s) = (c :: first) :: rest := by
    rw [splitOn, if_neg (by rw [hbreak]; exact Bool.false_ne_true)]
    split <;> exact ⟨_, _, rfl⟩
  obtain ⟨lines, hlines⟩ : ∃ lines, sourceLines (c :: s) = (c :: first) :: lines := by
    rw [sourceLines, hpieces]
    cases rest with
    | nil => exact ⟨[], by simp⟩
    | cons w ws => split <;> exact ⟨_, rfl⟩
  obtain ⟨w, p, hw⟩ := step_start hc first
  rw [normalizeChars, hlines, layLines_cons, hw]
  cases layLines p lines <;> rfl

end PolicyForge.Layout
