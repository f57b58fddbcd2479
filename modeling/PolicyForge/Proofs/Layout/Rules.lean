import Mathlib.Data.List.Chain
import PolicyForge.Proofs.Layout.Lines
/-!
# The rules of normal layout

What a text in normal layout looks like to its own scan: where its lines start, how they end, and
where an empty line may stand (`normalize_laidOut`).  The rules of one line are those of
`ScannedLine.laid`.  The rules of neighbours are carried from line to line: what `Progress` knows
of the last line that was written is what decides on an empty line before the next.
-/
namespace PolicyForge.Layout

open Text

/-! ## The rules -/

/-- What the rules on empty lines ask of a line `b` that stands directly after a line `a`. -/
structure Neighbours (a b : ScannedLine) : Prop where
  /-- No two blank lines of code stand next to each other. -/
  apart : a.isKept = true ∨ b.isKept = true
  /-- No blank line of code stands directly before a line that starts with a closing brace. -/
  closing : a.isKept = false → startsWith '\x7d' (trim b.text) = false
  /-- No blank line of code stands directly after a line of code that ends with an opening brace. -/
  opening : b.isKept = false → a.start.carry = .code → a.stop.carry = .code →
    isDirective a.text = false → endsWith '\x7b' a.text = false

/-- A text whose lines keep to the rules of normal layout. -/
structure LaidOut (text : List Char) : Prop where
  /-- A directive starts at the margin. -/
  directive : ∀ l ∈ linesOf text, l.start.carry = .code → isDirective l.text = true →
    startsWith '#' l.text = true
  /-- Any other line of code that is not blank is indented by its depth, less the closing braces
  that it starts with, and by nothing else. -/
  indented : ∀ l ∈ linesOf text, l.start.carry = .code → isDirective l.text = false →
    allBlank l.text = false → ∃ c rest, isBlank c = false ∧
      l.text = indentation (l.start.depth - leadingClosers (trim l.text)) ++ c :: rest
  /-- A line that is code at both ends has no blanks at its end. -/
  ended : ∀ l ∈ linesOf text, l.start.carry = .code → l.stop.carry = .code →
    trimEnd l.text = l.text
  /-- A blank line of code is empty. -/
  empty : ∀ l ∈ linesOf text, l.isKept = false → l.text = []
  /-- It is not the first line, -/
  first : ∀ l, (linesOf text).head? = some l → l.isKept = true
  /-- nor the last, -/
  last : ∀ l, (linesOf text).getLast? = some l → l.isKept = true
  /-- and it does not stand next to another one or at the inside of a brace. -/
  neighbours : (linesOf text).IsChain Neighbours
  /-- A text that is code at its end ends with exactly one LF. -/
  newline : ∀ l, (linesOf text).getLast? = some l → l.stop.carry = .code →
    ∃ t c, c ≠ '\n' ∧ text = t ++ [c, '\n']

/-! ## The rules of one line -/

namespace ScannedLine

theorem isKept_eq_false {l : ScannedLine} :
    l.isKept = false ↔ l.start.carry = .code ∧ allBlank l.text = true := by
  simp [isKept]

theorem allBlank_of_isKept {l : ScannedLine} (hk : l.isKept = true) (hc : l.start.carry = .code) :
    allBlank l.text = false := by
  by_contra hb
  rw [Bool.not_eq_false] at hb
  rw [isKept_eq_false.2 ⟨hc, hb⟩] at hk
  cases hk

theorem startsWith_laidText {l : ScannedLine} (hc : l.start.carry = .code)
    (hd : isDirective l.text = true) : startsWith '#' l.laidText = true := by
  rw [laidText_directive hc hd]
  exact hd

/-- What follows the indentation of a line of code starts with a character that is no blank. -/
theorem laidText_indented {l : ScannedLine} (hc : l.start.carry = .code)
    (hd : isDirective l.text = false) (hb : allBlank l.text = false) :
    ∃ c rest, isBlank c = false ∧
      l.laidText = indentation (l.start.depth - leadingClosers (trim l.text)) ++ c :: rest := by
  obtain ⟨hall, -⟩ | ⟨c, t, hblank, hct⟩ := trimStart_cases l.text
  · rw [hb] at hall
    cases hall
  · by_cases hs : l.stop.carry = .code
    · refine ⟨c, trimEnd t, hblank, ?_⟩
      rw [laidText_code hc hd hs]
      congr 1
      rw [trim, hct, trimEnd_cons_of_not_blank hblank]
    · rw [laidText_opening hc hs, hct]
      by_cases hv : l.stop.carry = .verbatim
      · exact ⟨c, t, hblank, by rw [hv]; rfl⟩
      · refine ⟨c, dropReturn t, hblank, ?_⟩
        rw [lineBody_of_ne_verbatim hv, dropReturn_cons_of_not_blank hblank]

theorem trimEnd_laidText {l : ScannedLine} (hk : l.isKept = true) (hc : l.start.carry = .code)
    (hs : l.stop.carry = .code) : trimEnd l.laidText = l.laidText := by
  by_cases hd : isDirective l.text = true
  · rw [laidText_directive hc hd, trim, trimEnd_idem]
  · rw [Bool.not_eq_true] at hd
    have hb : allBlank (trim l.text) = false := by
      rw [← Bool.not_eq_true, ← trim_eq_nil, trim_idem, trim_eq_nil, allBlank_of_isKept hk hc]
      decide
    rw [laidText_code hc hd hs, trimEnd_append hb, trim, trimEnd_idem]

/-- A line of code that is laid ends with an opening brace exactly if the line opened one there. -/
theorem endsWith_laidText {l : ScannedLine} (hk : l.isKept = true) (hc : l.start.carry = .code)
    (hs : l.stop.carry = .code) (hd : isDirective l.text = false) :
    endsWith '\x7b' l.laidText = l.opens := by
  have hend : endsWith '\x7b' l.laidText = endsWith '\x7b' (trim l.text) := by
    have hne : trim l.text ≠ [] := fun hn => by
      rw [trim_eq_nil, allBlank_of_isKept hk hc] at hn
      cases hn
    rw [laidText_code hc hd hs, endsWith, endsWith, List.getLast?_append_of_ne_nil _ hne]
  rw [hend, opens, hd, hs]
  rfl

/-- A line that ends in code has a text, unless it is a blank line of code. -/
theorem text_ne_nil {l : ScannedLine} (hk : l.isKept = true) (hs : l.stop.carry = .code) :
    l.text ≠ [] := by
  intro hn
  have hc : l.start.carry = .code := by
    by_contra hc
    refine hc (Eq.trans ?_ hs)
    rw [stop_scan fun h => hc h.1, hn]
    cases h : l.start.carry <;> rfl
  have hb := allBlank_of_isKept hk hc
  rw [hn] at hb
  cases hb

end ScannedLine

/-- A line of a text in normal layout is an empty line of code, or it is laid. -/
theorem laid_of_mem_linesOf {text : List Char} {l : ScannedLine}
    (hl : l ∈ linesOf (normalizeChars text)) :
    l.isGap = true ∨ ∃ k : ScannedLine, k.isKept = true ∧ k.laid = l := by
  cases hgap : l.isGap with
  | true => exact .inl rfl
  | false =>
    have hmem : l ∈ (linesOf (normalizeChars text)).filter fun l => !l.isGap :=
      List.mem_filter.2 ⟨hl, by rw [hgap]; rfl⟩
    rw [linesOf_normalizeChars] at hmem
    obtain ⟨k, hk, hkl⟩ := List.mem_map.1 hmem
    exact .inr ⟨k, (List.mem_filter.1 hk).2, hkl⟩

/-! ## The rules of neighbours -/

/-- A line that was written last, as far as `Progress` knows of it. -/
structure Progress.Last (p : Progress) (prev : ScannedLine) : Prop where
  kept : prev.isKept = true
  afterOpen : prev.start.carry = .code → prev.stop.carry = .code → isDirective prev.text = false →
    endsWith '\x7b' prev.text = p.afterOpen

/-- The lines that are written for one line that counts: it is laid, maybe after an empty line. -/
theorem scannedLines_layLines_cons {p : Progress} {line : List Char}
    (hk : (⟨p.lineEnd, line⟩ : ScannedLine).isKept = true) (rest : List (List Char)) :
    ∃ gaps : List ScannedLine,
      (gaps = [] ∨ gaps = [⟨p.lineEnd, []⟩] ∧ p.carry = .code ∧ p.gap line = [[]]) ∧
      scannedLines p.lineEnd (layLines p (line :: rest)) =
        gaps ++ (⟨p.lineEnd, line⟩ : ScannedLine).laid ::
          scannedLines (step p line).2.lineEnd (layLines (step p line).2 rest) := by
  have hlaid : scannedLines p.lineEnd ((⟨p.lineEnd, line⟩ : ScannedLine).laidText ::
      layLines (step p line).2 rest) = (⟨p.lineEnd, line⟩ : ScannedLine).laid ::
        scannedLines (step p line).2.lineEnd (layLines (step p line).2 rest) := by
    have hstop : p.lineEnd.next (⟨p.lineEnd, line⟩ : ScannedLine).laidText = p.lineEnd.next line :=
      (⟨p.lineEnd, line⟩ : ScannedLine).stop_laid
    rw [scannedLines, lineEnd_step, hstop]
    rfl
  by_cases hc : p.carry = .code
  · have hwritten := congrArg Prod.fst (step_code hc (ScannedLine.allBlank_of_isKept hk hc))
    rw [layLines_cons, hwritten, List.append_assoc, List.singleton_append]
    rcases p.gap_eq line with hg | hg
    · exact ⟨[], .inl rfl, by rw [hg]; exact hlaid⟩
    · refine ⟨[⟨p.lineEnd, []⟩], .inr ⟨rfl, hc, hg⟩, ?_⟩
      rw [hg, List.singleton_append, scannedLines, LineEnd.next_of_allBlank hc rfl, hlaid,
        List.singleton_append]
  · have hwritten : (step p line).1 = [(⟨p.lineEnd, line⟩ : ScannedLine).laidText] := by
      rw [step_within hc]
    rw [layLines_cons, hwritten, List.singleton_append]
    exact ⟨[], .inl rfl, hlaid⟩

theorem scannedLines_layLines_blank {p : Progress} {line : List Char}
    (hk : (⟨p.lineEnd, line⟩ : ScannedLine).isKept = false) (rest : List (List Char)) :
    layLines p (line :: rest) = layLines { p with blankPending := p.any } rest := by
  obtain ⟨hc, hb⟩ := ScannedLine.isKept_eq_false.1 hk
  rw [layLines_cons, step_blank hc hb]
  rfl

/-- After a line that counts, `Progress` knows of it once it is laid. -/
theorem last_step {p : Progress} {line : List Char}
    (hk : (⟨p.lineEnd, line⟩ : ScannedLine).isKept = true) :
    (step p line).2.Last (⟨p.lineEnd, line⟩ : ScannedLine).laid where
  kept := (ScannedLine.isKept_laid _).trans hk
  afterOpen hc hs hd := by
    rw [ScannedLine.stop_laid] at hs
    have hd' := (ScannedLine.isDirective_laidText _).symm.trans hd
    rw [step_code hc (ScannedLine.allBlank_of_isKept hk hc)]
    exact ScannedLine.endsWith_laidText hk hc hs hd'

/-- Where an empty line is written, no line that opened a brace was written last, and no line that
starts with a closing brace comes next. -/
theorem Progress.of_gap {p : Progress} {line : List Char} (h : p.gap line = [[]]) :
    p.afterOpen = false ∧ startsWith '\x7d' (trim line) = false := by
  unfold gap at h
  split at h
  · rename_i hif
    simp only [Bool.and_eq_true, Bool.not_eq_eq_eq_not, Bool.not_true] at hif
    exact ⟨hif.1.2, hif.2⟩
  · cases h

theorem Neighbours.of_isKept {a b : ScannedLine} (ha : a.isKept = true) (hb : b.isKept = true) :
    Neighbours a b where
  apart := .inl ha
  closing h := by rw [ha] at h; cases h
  opening h := by rw [hb] at h; cases h

/-- **After a line that was written, the rules of neighbours hold to the end.** -/
theorem isChain_layLines : ∀ {p : Progress} {prev : ScannedLine} (lines : List (List Char)),
    p.Last prev → (prev :: scannedLines p.lineEnd (layLines p lines)).IsChain Neighbours
  | _, prev, [], _ => List.isChain_singleton prev
  | p, prev, line :: rest, hprev => by
    cases hk : (⟨p.lineEnd, line⟩ : ScannedLine).isKept with
    | false =>
      rw [scannedLines_layLines_blank hk]
      exact isChain_layLines (p := { p with blankPending := p.any }) rest ⟨hprev.kept, hprev.afterOpen⟩
    | true =>
      have ih := isChain_layLines rest (last_step hk)
      have hlaid := (ScannedLine.isKept_laid _).trans hk
      obtain ⟨gaps, rfl | ⟨rfl, hc, hg⟩, hlines⟩ := scannedLines_layLines_cons hk rest
      · rw [hlines]
        exact List.isChain_cons_cons.2 ⟨.of_isKept hprev.kept hlaid, ih⟩
      · obtain ⟨hopen, hclose⟩ := Progress.of_gap hg
        rw [hlines]
        refine List.isChain_cons_cons.2 ⟨?_, List.isChain_cons_cons.2 ⟨?_, ih⟩⟩
        · exact {
            apart := .inl hprev.kept
            closing := fun h => by rw [hprev.kept] at h; cases h
            opening := fun _ hstart hstop hd => (hprev.afterOpen hstart hstop hd).trans hopen }
        · exact {
            apart := .inr hlaid
            closing := fun _ => (congrArg _ (ScannedLine.trim_laidText _)).trans hclose
            opening := fun h => by rw [hlaid] at h; cases h }

/-- The last line that is written is one that counts. -/
theorem isKept_getLast_layLines : ∀ {p : Progress} {prev : ScannedLine} (lines : List (List Char)),
    prev.isKept = true →
    ∀ l, (prev :: scannedLines p.lineEnd (layLines p lines)).getLast? = some l → l.isKept = true
  | _, prev, [], hprev, l, hl => by
    rw [← Option.some.inj hl]
    exact hprev
  | p, prev, line :: rest, hprev, l, hl => by
    cases hk : (⟨p.lineEnd, line⟩ : ScannedLine).isKept with
    | false =>
      rw [scannedLines_layLines_blank hk] at hl
      exact isKept_getLast_layLines (p := { p with blankPending := p.any }) rest hprev l hl
    | true =>
      have ih := isKept_getLast_layLines (p := (step p line).2) rest (last_step hk).kept
      obtain ⟨gaps, -, hlines⟩ := scannedLines_layLines_cons hk rest
      rw [hlines, ← List.cons_append, List.getLast?_append_of_ne_nil _ (List.cons_ne_nil _ _)] at hl
      exact ih l hl

/-! ## A text in normal layout -/

/-- Blank lines at the start of a text are not written, so the first line that is written is one
that counts. -/
theorem exists_layLines_start : ∀ {lines : List (List Char)},
    (∃ line ∈ lines, allBlank line = false) →
    ∃ (p : Progress) (first : ScannedLine) (rest : List (List Char)), p.Last first ∧
      scannedLines .fresh (layLines .start lines) = first :: scannedLines p.lineEnd (layLines p rest)
  | [], h => by
    obtain ⟨_, hmem, _⟩ := h
    cases hmem
  | line :: rest, h => by
    cases hk : (⟨Progress.start.lineEnd, line⟩ : ScannedLine).isKept with
    | false =>
      rw [scannedLines_layLines_blank hk]
      obtain ⟨l, hl, hb⟩ := h
      rcases List.mem_cons.1 hl with rfl | hl
      · rw [(ScannedLine.isKept_eq_false.1 hk).2] at hb
        cases hb
      · exact exists_layLines_start ⟨l, hl, hb⟩
    | true =>
      obtain ⟨gaps, rfl | ⟨-, -, hg⟩, hlines⟩ := scannedLines_layLines_cons hk rest
      · exact ⟨_, _, rest, last_step hk, hlines⟩
      · cases hg

theorem exists_linesOf_normalizeChars {text : List Char}
    (h : ∃ line ∈ sourceLines text, allBlank line = false) :
    ∃ (p : Progress) (first : ScannedLine) (rest : List (List Char)), p.Last first ∧
      linesOf (normalizeChars text) = first :: scannedLines p.lineEnd (layLines p rest) := by
  obtain ⟨p, first, rest, hfirst, hlines⟩ := exists_layLines_start h
  refine ⟨p, first, rest, hfirst, ?_⟩
  rw [linesOf, sourceLines_normalizeChars]
  split
  · rename_i hn
    rw [hn] at hlines
    cases hlines
  · exact hlines

/-- A text in normal layout ends with one LF, if its last line is not empty. -/
theorem exists_normalizeChars_eq {text : List Char} {l : ScannedLine}
    (hl : (linesOf (normalizeChars text)).getLast? = some l) (hne : l.text ≠ []) :
    ∃ t c, c ≠ '\n' ∧ normalizeChars text = t ++ [c, '\n'] := by
  obtain ⟨s, c, hs⟩ : ∃ s c, l.text = s ++ [c] :=
    ⟨_, _, (List.dropLast_append_getLast hne).symm⟩
  obtain ⟨before, hlines⟩ := List.getLast?_eq_some_iff.1 hl
  have hsource : sourceLines (normalizeChars text) = before.map (·.text) ++ [s ++ [c]] := by
    rw [← map_text_scannedLines .fresh (sourceLines _), ← linesOf, hlines, List.map_append,
      List.map_singleton, hs]
  have hline : s ++ [c] ∈ sourceLines (normalizeChars text) := by
    rw [hsource]
    exact List.mem_append_right _ List.mem_cons_self
  have hmem : '\n' ∉ s ++ [c] := newline_not_mem_sourceLines hline
  refine ⟨(before.map (·.text)).flatMap (· ++ ['\n']) ++ s, c, ?_, ?_⟩
  · rintro rfl
    exact hmem (List.mem_append_right _ List.mem_cons_self)
  · rw [normalizeChars_ended, hsource, List.flatMap_append]
    simp

/-- **The rules of normal layout.**  A text with a line that is not blank keeps to them once it is
laid out. -/
theorem normalize_laidOut (s : String)
    (h : ∃ line ∈ sourceLines s.toList, allBlank line = false) :
    LaidOut (normalize s).toList := by
  rw [toList_normalize]
  obtain ⟨p, first, rest, hfirst, hlines⟩ := exists_linesOf_normalizeChars h
  have hlast : ∀ l, (linesOf (normalizeChars s.toList)).getLast? = some l → l.isKept = true := by
    rw [hlines]
    exact isKept_getLast_layLines rest hfirst.kept
  exact {
    directive := fun l hl hc hd => by
      obtain hgap | ⟨k, -, rfl⟩ := laid_of_mem_linesOf hl
      · rw [ScannedLine.text_of_isGap hgap] at hd
        cases hd
      · exact ScannedLine.startsWith_laidText hc (k.isDirective_laidText.symm.trans hd)
    indented := fun l hl hc hd hb => by
      obtain hgap | ⟨k, hkept, rfl⟩ := laid_of_mem_linesOf hl
      · rw [ScannedLine.text_of_isGap hgap] at hb
        cases hb
      · have hindented := ScannedLine.laidText_indented (l := k) hc
          (k.isDirective_laidText.symm.trans hd) (ScannedLine.allBlank_of_isKept hkept hc)
        rwa [← k.trim_laidText] at hindented
    ended := fun l hl hc hs => by
      obtain hgap | ⟨k, hkept, rfl⟩ := laid_of_mem_linesOf hl
      · rw [ScannedLine.text_of_isGap hgap]
        rfl
      · rw [k.stop_laid] at hs
        exact ScannedLine.trimEnd_laidText hkept hc hs
    empty := fun l hl hl' => by
      obtain hgap | ⟨k, hkept, rfl⟩ := laid_of_mem_linesOf hl
      · exact ScannedLine.text_of_isGap hgap
      · rw [ScannedLine.isKept_laid, hkept] at hl'
        cases hl'
    first := fun l hl => by
      rw [hlines] at hl
      rw [← Option.some.inj hl]
      exact hfirst.kept
    last := hlast
    neighbours := by
      rw [hlines]
      exact isChain_layLines rest hfirst
    newline := fun l hl hs =>
      exists_normalizeChars_eq hl (ScannedLine.text_ne_nil (hlast l hl) hs) }

/-- An empty line after a directive, none at the inside of a brace, and a comment that stays. -/
theorem normalize_laidOut_mixed :
    (∃ line ∈ sourceLines "\n #r\n\n x \x7b\n\n/* \x7b\n\n */ y\n\n\n z  \n\n \x7d w\n\n".toList,
      allBlank line = false) ∧
    LaidOut (normalize "\n #r\n\n x \x7b\n\n/* \x7b\n\n */ y\n\n\n z  \n\n \x7d w\n\n").toList ∧
    normalize "\n #r\n\n x \x7b\n\n/* \x7b\n\n */ y\n\n\n z  \n\n \x7d w\n\n" =
      "#r\n\nx \x7b\n    /* \x7b\n\n */ y\n\n    z\n\x7d w\n" :=
  have h : ∃ line ∈ sourceLines
      "\n #r\n\n x \x7b\n\n/* \x7b\n\n */ y\n\n\n z  \n\n \x7d w\n\n".toList,
      allBlank line = false := by decide
  ⟨h, normalize_laidOut _ h, by decide⟩

end PolicyForge.Layout
