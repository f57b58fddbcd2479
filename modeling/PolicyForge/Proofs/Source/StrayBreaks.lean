import PolicyForge.Proofs.Layout.Reading
import PolicyForge.Proofs.Source.LineBreaks
/-!
# Stray breaks and the layout

A text is `Guarded` if every stray break in it stands within a verbatim string.  The layout takes
blanks off the ends of lines, and every stray break is a blank; but a break within a string stands
neither before the first character of a line of code nor at the end of one.  So a guarded text
holds a stray break in normal layout exactly if it holds one before
(`holdsStray_normalizeChars`).
-/
namespace PolicyForge.Source

open Layout Text

/-- Every stray break of a text stands within a string, if the text is read from a place. -/
def GuardedFrom (p : Place) (text : List Char) : Prop :=
  ∀ u c t, text = u ++ c :: t → isStray c = true → u.foldl Place.next p = .within .verbatim

/-- Every stray break of a text stands within a string. -/
def Guarded (text : List Char) : Prop := GuardedFrom .margin text

theorem guardedFrom_append {p : Place} {s t : List Char} :
    GuardedFrom p (s ++ t) ↔ GuardedFrom p s ∧ GuardedFrom (s.foldl Place.next p) t := by
  constructor
  · intro h
    refine ⟨fun u c v hs hc => h u c (v ++ t) (by simp [hs]) hc, fun u c v ht hc => ?_⟩
    have := h (s ++ u) c v (by simp [ht]) hc
    rwa [List.foldl_append] at this
  · rintro ⟨hs, ht⟩ u c v hsplit hc
    rcases List.append_eq_append_iff.1 hsplit with ⟨w, rfl, hw⟩ | ⟨w, hw, hv⟩
    · rw [List.foldl_append]
      exact ht w c v hw hc
    · cases w with
      | nil =>
        have := ht [] c v (by simpa using hv.symm) hc
        rw [List.append_nil] at hw
        rw [← hw]
        exact this
      | cons d w =>
        obtain ⟨rfl, -⟩ := List.cons.inj hv
        exact hs u c w hw hc

/-! ## Blanks within a line -/

theorem foldl_next_eq_self {p : Place} {b : List Char} (h : ∀ c ∈ b, p.next c = p) :
    b.foldl Place.next p = p := by
  induction b with
  | nil => rfl
  | cons c b ih =>
    rw [List.foldl_cons, h c List.mem_cons_self, ih fun d hd => h d (List.mem_cons_of_mem c hd)]

theorem foldl_next_margin {b : List Char} (hb : allBlank b = true) (hn : '\n' ∉ b) :
    b.foldl Place.next .margin = .margin :=
  foldl_next_eq_self fun c hc => by
    have hne : c ≠ '\n' := fun he => hn (he ▸ hc)
    simp [Place.next, hne, List.all_eq_true.1 hb c hc]

theorem foldl_next_verbatim {b : List Char} (hb : allBlank b = true) (hn : '\n' ∉ b) :
    b.foldl Place.next (.within .verbatim) = .within .verbatim :=
  foldl_next_eq_self fun c hc => by
    have hne : c ≠ '\n' := fun he => hn (he ▸ hc)
    have hquote : c ≠ '"' := ne_of_holds (List.all_eq_true.1 hb c hc) rfl
    simp [Place.next, Mode.next, hne, hquote]

/-- Blanks that a line of code starts with hold no stray break. -/
theorem any_isStray_leading {b s : List Char} (h : GuardedFrom .margin (b ++ s))
    (hb : allBlank b = true) (hn : '\n' ∉ b) : b.any isStray = false := by
  rw [List.any_eq_false]
  intro c hc hstray
  obtain ⟨u, t, rfl⟩ := List.append_of_mem hc
  have hu : allBlank u = true := by
    simp only [allBlank, List.all_append, Bool.and_eq_true] at hb ⊢
    exact hb.1
  have hplace := h u c (t ++ s) (by simp) hstray
  rw [foldl_next_margin hu fun h => hn (List.mem_append_left _ h)] at hplace
  cases hplace

/-- Blanks that a line ends with hold no stray break unless a string is open at its end. -/
theorem any_isStray_trailing {p : Place} {b s : List Char} (h : GuardedFrom p (s ++ b))
    (hb : allBlank b = true) (hn : '\n' ∉ b)
    (hend : ((s ++ b).foldl Place.next p).carry ≠ .verbatim) : b.any isStray = false := by
  rw [List.any_eq_false]
  intro c hc hstray
  obtain ⟨u, t, rfl⟩ := List.append_of_mem hc
  have hct : allBlank (c :: t) = true := by
    simp only [allBlank, List.all_append, Bool.and_eq_true] at hb ⊢
    exact hb.2
  have hplace := h (s ++ u) c t (by simp) hstray
  have hstays := foldl_next_verbatim hct fun h => hn (List.mem_append_right _ h)
  rw [← List.append_assoc, List.foldl_append, hplace, hstays] at hend
  exact hend rfl

/-! ## One line -/

theorem place_of_read {close : Nat → Option Nat} : ∀ {s : List Char} {p : Place} {depth : Nat}
    {r : Place × Nat}, read close p depth s = some r → s.foldl Place.next p = r.1
  | [], p, depth, r, h => by
    cases h
    rfl
  | c :: s, p, depth, r, h => by
    rw [Layout.read] at h
    cases hd : p.depthAfter close depth c with
    | none => rw [hd] at h; cases h
    | some d =>
      rw [hd] at h
      have ih : s.foldl Place.next (p.next c) = r.1 := place_of_read h
      exact ih

/-- What a line leaves open is what is open where its reading ends. -/
theorem carry_foldl_next {line : List Char} (h : '\n' ∉ line) (e : LineEnd) :
    (line.foldl Place.next (.ofCarry e.carry)).carry = (e.next line).carry := by
  have hread : (Layout.read cutOff _ _ _).map lineEndOf = _ := read_line h e
  rw [nextWith_cutOff] at hread
  obtain ⟨r, hr, hend⟩ := Option.map_eq_some_iff.1 hread
  rw [place_of_read hr, ← hend]
  rfl

/-- Every stray break of a line stands within a string. -/
def GuardedLine (l : ScannedLine) : Prop := GuardedFrom (.ofCarry l.start.carry) l.text

theorem dropReturn_of_getLast?_ne {s : List Char} (h : s.getLast? ≠ some '\r') :
    dropReturn s = s := by
  rcases dropReturn_cases s with hs | ⟨hs, -⟩
  · rw [hs, List.getLast?_concat] at h
    exact absurd rfl h
  · exact hs

/-- A part without a stray break in front changes nothing. -/
theorem isAstray_append_left {b : List Char} (hb : b.any isStray = false) (s : List Char) :
    isAstray (b ++ s) = isAstray s := by
  by_cases hs : s = []
  · subst hs
    have hlast : b.getLast? ≠ some '\r' := fun hl => by
      have := List.any_eq_false.1 hb '\r' (List.mem_of_mem_getLast? hl)
      exact this rfl
    rw [List.append_nil, isAstray, dropReturn_of_getLast?_ne hlast, hb]
    rfl
  · rw [isAstray, dropReturn_append hs, List.any_append, hb, Bool.false_or, isAstray]

theorem any_isStray_indentation (n : Nat) : (indentation n).any isStray = false := by
  rw [List.any_eq_false]
  intro c hc
  rw [List.eq_of_mem_replicate hc]
  decide

section

variable {l : ScannedLine} (hl : GuardedLine l) (hn : '\n' ∉ l.text)

include hl hn

/-- The last character of a line is no return unless a string is open there. -/
theorem dropReturn_of_guarded (hs : l.stop.carry ≠ .verbatim) : dropReturn l.text = l.text := by
  rcases dropReturn_cases l.text with h | ⟨h, -⟩
  · have hblank : allBlank ['\r'] = true := by decide
    have hend := carry_foldl_next hn l.start
    rw [GuardedLine, h] at hl
    have hany := any_isStray_trailing hl hblank (by decide) (by rw [← h, hend]; exact hs)
    exact absurd hany (by decide)
  · exact h

theorem any_isStray_trim (hc : l.start.carry = .code) (hs : l.stop.carry ≠ .verbatim) :
    (trim l.text).any isStray = l.text.any isStray := by
  obtain ⟨b, hb, hstart⟩ := exists_append_trimStart l.text
  obtain ⟨t, ht, hend⟩ := exists_trimEnd_append (trimStart l.text)
  have hcarry := carry_foldl_next hn l.start
  have hnb : '\n' ∉ b := fun h => hn (by rw [hstart]; exact List.mem_append_left _ h)
  have hnt : '\n' ∉ t := fun h => hn (by
    rw [hstart, hend]
    exact List.mem_append_right _ (List.mem_append_right _ h))
  have hbAny : b.any isStray = false := by
    rw [GuardedLine, hc, hstart] at hl
    exact any_isStray_leading hl hb hnb
  have htAny : t.any isStray = false := by
    have hsplit : l.text = (b ++ trim l.text) ++ t := by
      rw [List.append_assoc]
      conv => lhs; rw [hstart, hend]
      rfl
    rw [GuardedLine, hsplit] at hl
    exact any_isStray_trailing hl ht hnt (by rw [← hsplit, hcarry]; exact hs)
  conv => rhs; rw [hstart, hend]
  rw [List.any_append, List.any_append, hbAny, htAny, Bool.false_or, Bool.or_false]
  rfl

/-- A line of code that ends in code holds a stray break when it is laid if it held one. -/
theorem isAstray_laidText_code (hc : l.start.carry = .code) (hs : l.stop.carry = .code) :
    isAstray l.laidText = isAstray l.text := by
  have hv : l.stop.carry ≠ .verbatim := by rw [hs]; decide
  have hlast : (trim l.text).getLast? ≠ some '\r' := fun h => by
    have hself : trimEnd (trim l.text) = trim l.text := trimEnd_idem _
    obtain ⟨s, hs⟩ : ∃ s, trim l.text = s ++ ['\r'] := by
      obtain ⟨ys, hys⟩ := List.getLast?_eq_some_iff.1 h
      exact ⟨ys, hys⟩
    rw [hs, trimEnd_append_of_allBlank (by decide)] at hself
    have hlen := congrArg List.length hself
    obtain ⟨t, -, ht⟩ := exists_trimEnd_append s
    have := congrArg List.length ht
    simp only [List.length_append, List.length_singleton] at hlen this
    omega
  have htrim : isAstray (trim l.text) = isAstray l.text := by
    rw [isAstray, isAstray, dropReturn_of_getLast?_ne hlast, dropReturn_of_guarded hl hn hv,
      any_isStray_trim hl hn hc hv]
  by_cases hd : isDirective l.text = true
  · rw [ScannedLine.laidText_directive hc hd, htrim]
  · rw [ScannedLine.laidText_code hc (by simpa using hd) hs,
      isAstray_append_left (any_isStray_indentation _), htrim]

/-- A line of code that leaves something open holds a stray break when it is laid if it held one. -/
theorem isAstray_laidText_opening (hc : l.start.carry = .code) (hs : l.stop.carry ≠ .code) :
    isAstray l.laidText = isAstray l.text := by
  obtain ⟨b, hb, hstart⟩ := exists_append_trimStart l.text
  have hnb : '\n' ∉ b := fun h => hn (by rw [hstart]; exact List.mem_append_left _ h)
  have hbAny : b.any isStray = false := by
    have hguard := hl
    rw [GuardedLine, hc, hstart] at hguard
    exact any_isStray_leading hguard hb hnb
  have hbody : isAstray (lineBody l.stop.carry (trimStart l.text)) = isAstray (trimStart l.text) := by
    by_cases hv : l.stop.carry = .verbatim
    · rw [hv]
      rfl
    · have hdrop : dropReturn (trimStart l.text) = trimStart l.text := by
        refine dropReturn_of_getLast?_ne fun h => ?_
        have hlast : l.text.getLast? = some '\r' := by
          rw [hstart, List.getLast?_append, h]
          rfl
        rcases dropReturn_cases l.text with hr | ⟨-, hr⟩
        · have := congrArg List.length hr
          rw [dropReturn_of_guarded hl hn hv] at this
          simp at this
        · exact hr hlast
      rw [lineBody_of_ne_verbatim hv, hdrop]
  rw [ScannedLine.laidText_opening hc hs, isAstray_append_left (any_isStray_indentation _), hbody]
  conv => rhs; rw [hstart, isAstray_append_left hbAny]

/-- **Laying a guarded line keeps its stray breaks.** -/
theorem isAstray_laidText : isAstray l.laidText = isAstray l.text := by
  by_cases hc : l.start.carry = .code
  · by_cases hs : l.stop.carry = .code
    · exact isAstray_laidText_code hl hn hc hs
    · exact isAstray_laidText_opening hl hn hc hs
  · rw [ScannedLine.laidText_within hc]
    by_cases hv : l.stop.carry = .verbatim
    · rw [hv]
      rfl
    · rw [lineBody_of_ne_verbatim hv, dropReturn_of_guarded hl hn hv]

/-- A line that does not count holds no stray break. -/
theorem isAstray_of_not_isKept (hk : l.isKept = false) : isAstray l.text = false := by
  simp only [ScannedLine.isKept, Bool.not_eq_false', Bool.and_eq_true, beq_iff_eq] at hk
  have hguard : GuardedFrom .margin (l.text ++ []) := by
    rw [List.append_nil]
    rw [GuardedLine, hk.1] at hl
    exact hl
  have hany := any_isStray_leading hguard hk.2 hn
  have h := isAstray_append_left hany []
  rw [List.append_nil] at h
  exact h

end

/-! ## All lines -/

theorem guardedLine_of_mem : ∀ {ws : List (List Char)} {e : LineEnd}, (∀ w ∈ ws, '\n' ∉ w) →
    GuardedFrom (.ofCarry e.carry) (ws.flatMap (· ++ ['\n'])) →
    ∀ l ∈ scannedLines e ws, GuardedLine l
  | [], _, _, _, _, hl => by cases hl
  | w :: ws, e, hn, hguard, l, hl => by
    have hw := hn w List.mem_cons_self
    rw [List.flatMap_cons, guardedFrom_append, guardedFrom_append] at hguard
    obtain ⟨⟨hline, -⟩, hrest⟩ := hguard
    have hplace : (w ++ ['\n']).foldl Place.next (.ofCarry e.carry) =
        .ofCarry (e.next w).carry := by
      rw [List.foldl_append, ← carry_foldl_next hw]
      rfl
    rw [hplace] at hrest
    rw [scannedLines] at hl
    rcases List.mem_cons.1 hl with rfl | hl
    · exact hline
    · exact guardedLine_of_mem (fun v hv => hn v (List.mem_cons_of_mem w hv)) hrest l hl

theorem isAstray_of_isGap {l : ScannedLine} (h : l.isGap = true) : isAstray l.text = false := by
  rw [ScannedLine.text_of_isGap h]
  rfl

/-- A text of ended lines holds a stray break if one of its lines does. -/
theorem holdsStray_ended_iff {ws : List (List Char)} (hn : ∀ w ∈ ws, '\n' ∉ w) :
    holdsStray (ws.flatMap (· ++ ['\n'])) = true ↔
      ∃ l ∈ scannedLines .fresh ws, isAstray l.text = true := by
  rw [holdsStray_ended hn, List.any_eq_true]
  conv => lhs; rw [← map_text_scannedLines .fresh ws]
  simp

theorem sourceLines_ended {ws : List (List Char)} (hn : ∀ w ∈ ws, '\n' ∉ w) :
    Layout.sourceLines (ws.flatMap (· ++ ['\n'])) = ws := by
  rw [Layout.sourceLines, splitOn_flatMap_ended ws hn]
  simp

/-- **A guarded text holds a stray break in normal layout exactly if it holds one before.** -/
theorem holdsStray_normalizeChars {ws : List (List Char)} (hn : ∀ w ∈ ws, '\n' ∉ w)
    (hguard : Guarded (ws.flatMap (· ++ ['\n']))) :
    holdsStray (normalizeChars (ws.flatMap (· ++ ['\n']))) =
      holdsStray (ws.flatMap (· ++ ['\n'])) := by
  have hlines : linesOf (ws.flatMap (· ++ ['\n'])) = scannedLines .fresh ws := by
    rw [linesOf, sourceLines_ended hn]
  have hguarded : ∀ l ∈ scannedLines .fresh ws, GuardedLine l := guardedLine_of_mem hn hguard
  have hnl : ∀ l ∈ scannedLines .fresh ws, '\n' ∉ l.text := fun l hl =>
    hn _ (by rw [← map_text_scannedLines .fresh ws]; exact List.mem_map_of_mem hl)
  have hnormal := linesOf_normalizeChars (ws.flatMap (· ++ ['\n']))
  rw [hlines] at hnormal
  rw [Bool.eq_iff_iff, holdsStray_ended_iff hn, normalizeChars_ended,
    holdsStray_ended_iff fun w hw => newline_not_mem_sourceLines hw]
  constructor
  · -- a line that is written and holds a stray break is no empty one, so it is some line laid
    rintro ⟨l, hl, hstray⟩
    have hgap : l.isGap = false := by
      rw [Bool.eq_false_iff]
      intro hgap
      rw [isAstray_of_isGap hgap] at hstray
      cases hstray
    have hmem : l ∈ ((scannedLines .fresh ws).filter ScannedLine.isKept).map ScannedLine.laid := by
      rw [← hnormal]
      exact List.mem_filter.2 ⟨hl, by simp [hgap]⟩
    obtain ⟨k, hk, rfl⟩ := List.mem_map.1 hmem
    have hk' := (List.mem_filter.1 hk).1
    exact ⟨k, hk', (isAstray_laidText (hguarded k hk') (hnl k hk')).symm.trans hstray⟩
  · -- a line that is left out holds none
    rintro ⟨l, hl, hstray⟩
    have hkept : l.isKept = true := by
      by_contra hk
      rw [isAstray_of_not_isKept (hguarded l hl) (hnl l hl) (by simpa using hk)] at hstray
      cases hstray
    have hmem : l.laid ∈ (linesOf (normalizeChars (ws.flatMap (· ++ ['\n'])))).filter
        fun l => !l.isGap := by
      rw [hnormal]
      exact List.mem_map_of_mem (List.mem_filter.2 ⟨hl, hkept⟩)
    exact ⟨l.laid, (List.mem_filter.1 hmem).1,
      (isAstray_laidText (hguarded l hl) (hnl l hl)).trans hstray⟩

end PolicyForge.Source
