import PolicyForge.Proofs.Layout.Lines
/-!
# Texts read from left to right

The scan takes a text line by line, with a directive wherever a line of code starts with `#`.  Here
one machine takes the whole text one character at a time, line ends included, so that a text can be
read in parts that are no lines (`read_append`).  `readLines_eq_read` says that the two agree.
-/
namespace PolicyForge.Layout

open Text

variable {close : Nat → Option Nat}

/-! ## Line by line -/

/-- What is open after a line, with `close` saying what a closing brace does; none if it refuses
one. -/
def LineEnd.nextWith (close : Nat → Option Nat) (e : LineEnd) (line : List Char) : Option LineEnd :=
  if e.carry = .code ∧ isDirective line = true then some e
  else scanWith close (.carried e.carry) e.depth line

def LineEnd.after (close : Nat → Option Nat) : LineEnd → List (List Char) → Option LineEnd
  | e, [] => some e
  | e, line :: rest => (e.nextWith close line).bind fun e => e.after close rest

/-- What is open after a text that is read line by line. -/
def readLines (close : Nat → Option Nat) (e : LineEnd) (text : List Char) : Option LineEnd :=
  e.after close (sourceLines text)

theorem nextWith_cutOff (e : LineEnd) (line : List Char) :
    e.nextWith cutOff line = some (e.next line) := by
  unfold LineEnd.nextWith LineEnd.next
  split
  · rfl
  · rw [scanWith_cutOff]
    rfl

theorem nextWith_nil (e : LineEnd) : e.nextWith close [] = some e := by
  obtain ⟨c, depth⟩ := e
  have hdirective : isDirective [] = false := rfl
  rw [LineEnd.nextWith, if_neg (by simp [hdirective])]
  cases c <;> rfl

theorem after_append (e : LineEnd) (ls rest : List (List Char)) :
    e.after close (ls ++ rest) = (e.after close ls).bind fun e => e.after close rest := by
  induction ls generalizing e with
  | nil => rfl
  | cons line ls ih =>
    rw [List.cons_append, LineEnd.after, LineEnd.after, Option.bind_assoc]
    exact congrArg _ (funext fun e => ih e)

/-- The empty line that may follow the last line end changes nothing. -/
theorem after_sourceLines (e : LineEnd) (text : List Char) :
    e.after close (sourceLines text) = e.after close (splitOn (· == '\n') text) := by
  unfold sourceLines
  dsimp only
  split
  · rename_i h
    have hlast : (splitOn (· == '\n') text).getLast? = some [] := by simpa using h
    conv => rhs; rw [← List.dropLast_append_getLast? [] hlast, after_append]
    cases e.after close (splitOn (· == '\n') text).dropLast with
    | none => rfl
    | some e' => rw [Option.bind_some, LineEnd.after, nextWith_nil, Option.bind_some, LineEnd.after]
  · rfl

/-! ## The machine -/

/-- Where in a text the reading stands. -/
inductive Place where
  /-- On a line of code of which nothing but blanks have been read. -/
  | margin
  | directive
  | within (m : Mode)
  deriving DecidableEq, Repr

namespace Place

/-- The place where a line starts. -/
def ofCarry : Carry → Place
  | .code => .margin
  | c => .within (.ofCarry c)

/-- What stays open when the line ends here. -/
def carry : Place → Carry
  | .margin | .directive => .code
  | .within m => m.carry

/-- The place after one more character. -/
def next (p : Place) (c : Char) : Place :=
  if c == '\n' then ofCarry p.carry
  else
    match p with
    | .margin =>
      if isBlank c then .margin else if c == '#' then .directive else .within (Mode.afterCode c)
    | .directive => .directive
    | .within m => .within (m.next c)

/-- The depth after one more character, by the place before it. -/
def depthAfter (close : Nat → Option Nat) (p : Place) (depth : Nat) (c : Char) : Option Nat :=
  match p with
  | .margin => Layout.depthAfter close .code depth c
  | .directive => some depth
  | .within m => Layout.depthAfter close m depth c

end Place

/-- The machine on the rest of a text. -/
def read (close : Nat → Option Nat) : Place → Nat → List Char → Option (Place × Nat)
  | p, depth, [] => some (p, depth)
  | p, depth, c :: s =>
    match p.depthAfter close depth c with
    | none => none
    | some depth => read close (p.next c) depth s

/-- Reading two parts is reading the first, then the second. -/
theorem read_append (p : Place) (depth : Nat) (s t : List Char) :
    read close p depth (s ++ t) = (read close p depth s).bind fun r => read close r.1 r.2 t := by
  induction s generalizing p depth with
  | nil => rfl
  | cons c s ih =>
    rw [List.cons_append, read, read]
    cases p.depthAfter close depth c with
    | none => rfl
    | some d => exact ih (p.next c) d

/-! ## One line -/

theorem read_newline (p : Place) (depth : Nat) (s : List Char) :
    read close p depth ('\n' :: s) = read close (.ofCarry p.carry) depth s := by
  have hdepth : p.depthAfter close depth '\n' = some depth := by
    cases p <;> simp [Place.depthAfter, depthAfter]
  rw [read, hdepth]
  rfl

theorem read_within {s : List Char} (h : '\n' ∉ s) (m : Mode) (depth : Nat) :
    read close (.within m) depth s = (run close m depth s).map fun r => (.within r.1, r.2) := by
  induction s generalizing m depth with
  | nil => rfl
  | cons c s ih =>
    rw [List.mem_cons, not_or] at h
    have hnext : (Place.within m).next c = .within (m.next c) := by
      rw [Place.next, if_neg (by simpa using Ne.symm h.1)]
    rw [read, run, Place.depthAfter, hnext]
    cases depthAfter close m depth c with
    | none => rfl
    | some d => exact ih h.2 (m.next c) d

theorem read_directive {s : List Char} (h : '\n' ∉ s) (depth : Nat) :
    read close .directive depth s = some (.directive, depth) := by
  induction s with
  | nil => rfl
  | cons c s ih =>
    rw [List.mem_cons, not_or] at h
    have hnext : Place.directive.next c = .directive := by
      rw [Place.next, if_neg (by simpa using Ne.symm h.1)]
    rw [read, Place.depthAfter, hnext]
    exact ih h.2

theorem read_blanks {b : List Char} (h : '\n' ∉ b) (hb : allBlank b = true) (depth : Nat) :
    read close .margin depth b = some (.margin, depth) := by
  induction b with
  | nil => rfl
  | cons c b ih =>
    rw [List.mem_cons, not_or] at h
    obtain ⟨hc, hb⟩ : isBlank c = true ∧ allBlank b = true := by simpa [allBlank] using hb
    have hnext : Place.margin.next c = .margin := by
      rw [Place.next, if_neg (by simpa using Ne.symm h.1)]
      simp [hc]
    rw [read, Place.depthAfter, depthAfter_of_isBlank hc, hnext]
    exact ih h.2 hb

/-- What is open at the end of a reading. -/
def lineEndOf (r : Place × Nat) : LineEnd := ⟨r.1.carry, r.2⟩

/-- A line of code: blanks, and then either nothing or a first character that decides. -/
theorem read_margin {line : List Char} (h : '\n' ∉ line) (depth : Nat) :
    (read close .margin depth line).map lineEndOf =
      (⟨.code, depth⟩ : LineEnd).nextWith close line := by
  obtain ⟨b, hb, hline⟩ := exists_append_trimStart line
  have hdirective : isDirective line = startsWith '#' (trimEnd (trimStart line)) := rfl
  rw [hline, List.mem_append, not_or] at h
  have hread : read close .margin depth line = read close .margin depth (trimStart line) := by
    conv => lhs; rw [hline, read_append, read_blanks h.1 hb, Option.bind_some]
  rw [hread]
  rcases trimStart_cases line with ⟨hall, hs⟩ | ⟨c, t, hc, hs⟩
  · rw [hs] at hdirective ⊢
    have hrun : run close .code depth line = _ := run_code_blanks hall depth
    rw [LineEnd.nextWith, if_neg (by simp [hdirective, startsWith, trimEnd, dropEndWhile]),
      scanWith_carried, Mode.ofCarry, hrun]
    rfl
  · rw [hs] at h
    obtain ⟨hn, ht⟩ := not_or.1 (List.mem_cons.not.1 h.2)
    have hend : trimEnd (c :: t) = c :: trimEnd t := trimEnd_cons_of_not_blank hc t
    rw [hs, hend] at hdirective
    rw [hs, LineEnd.nextWith]
    by_cases hhash : c = '#'
    · -- a directive is not scanned, and the machine passes over the rest of its line
      have hnext : Place.margin.next c = .directive := by subst hhash; rfl
      have hdepth : depthAfter close .code depth c = some depth := by subst hhash; rfl
      rw [if_pos ⟨rfl, by rw [hdirective, hhash]; rfl⟩, read, Place.depthAfter, hdepth, hnext]
      simp [read_directive ht, lineEndOf, Place.carry]
    · have hnext : Place.margin.next c = .within (Mode.afterCode c) := by
        rw [Place.next, if_neg (by simpa using Ne.symm hn)]
        simp [hc, hhash]
      have hrun : run close .code depth line = run close .code depth (c :: t) := by
        conv => lhs; rw [hline, hs, run_append, run_code_blanks hb, Option.bind_some]
      rw [if_neg (by simp [hdirective, startsWith, hhash]), scanWith_carried, Mode.ofCarry, hrun,
        read, run, Place.depthAfter, hnext]
      cases depthAfter close .code depth c with
      | none => rfl
      | some d =>
        rw [show Mode.code.next c = Mode.afterCode c from rfl]
        simp only [read_within ht, Option.map_map]
        rfl

/-- **One line of the machine is one line of the scan.** -/
theorem read_line {line : List Char} (h : '\n' ∉ line) (e : LineEnd) :
    (read close (.ofCarry e.carry) e.depth line).map lineEndOf = e.nextWith close line := by
  obtain ⟨c, depth⟩ := e
  cases hc : c with
  | code => exact read_margin h depth
  | _ =>
    rw [LineEnd.nextWith, if_neg (by simp), scanWith_carried]
    simp only [Place.ofCarry, read_within h, Option.map_map]
    rfl

theorem read_line_cons {line : List Char} (h : '\n' ∉ line) (e : LineEnd) (rest : List Char) :
    read close (.ofCarry e.carry) e.depth (line ++ '\n' :: rest) =
      (e.nextWith close line).bind fun e => read close (.ofCarry e.carry) e.depth rest := by
  rw [read_append, ← read_line h]
  cases read close (.ofCarry e.carry) e.depth line with
  | none => rfl
  | some r => exact read_newline r.1 r.2 rest

/-! ## All lines -/

theorem read_lines : ∀ (lines : List (List Char)) (e : LineEnd), lines ≠ [] →
    (∀ line ∈ lines, '\n' ∉ line) →
    (read close (.ofCarry e.carry) e.depth (join ['\n'] lines)).map lineEndOf =
      e.after close lines
  | [], _, hne, _ => absurd rfl hne
  | [line], e, _, h => by
    rw [join, read_line (h line List.mem_cons_self), LineEnd.after]
    cases e.nextWith close line <;> rfl
  | line :: next :: rest, e, _, h => by
    have hrest : ∀ l ∈ next :: rest, '\n' ∉ l := fun l hl => h l (List.mem_cons_of_mem _ hl)
    rw [join, List.append_assoc, List.singleton_append,
      read_line_cons (h line List.mem_cons_self), LineEnd.after]
    · cases e.nextWith close line with
      | none => rfl
      | some e' => exact read_lines (next :: rest) e' (List.cons_ne_nil _ _) hrest
    · exact List.cons_ne_nil _ _

/-- **Reading a text line by line is reading it from left to right.** -/
theorem readLines_eq_read (e : LineEnd) (text : List Char) :
    readLines close e text = (read close (.ofCarry e.carry) e.depth text).map lineEndOf := by
  have hlines : ∀ line ∈ splitOn (· == '\n') text, '\n' ∉ line := by
    intro line hline hn
    simpa using not_of_mem_splitOn text line hline '\n' hn
  have h : (read close _ _ _).map lineEndOf = _ := read_lines _ e (splitOn_ne_nil _ text) hlines
  rw [join_splitOn] at h
  rw [readLines, after_sourceLines, h]

/-! ## Refusing to close what is not open -/

/-- The same, some levels deeper. -/
def LineEnd.deepen (e : LineEnd) (k : Nat) : LineEnd := ⟨e.carry, e.depth + k⟩

theorem depthAfter_strict_add {m : Mode} {depth depth' : Nat} {c : Char} (k : Nat)
    (h : depthAfter strict m depth c = some depth') :
    depthAfter strict m (depth + k) c = some (depth' + k) := by
  unfold depthAfter at h ⊢
  split at h
  · rw [Option.some_inj] at h
    rw [← h, if_pos (by assumption)]
    congr 1
    omega
  · split at h
    · rw [if_neg (by assumption), if_pos (by assumption)]
      cases depth with
      | zero => cases h
      | succ n =>
        obtain rfl : n = depth' := by simpa [strict] using h
        rw [show n + 1 + k = n + k + 1 by omega]
        rfl
    · rw [if_neg (by assumption), if_neg (by assumption)]
      rw [Option.some_inj] at h
      rw [h]

/-- What is read without refusal is read the same some levels deeper. -/
theorem read_strict_add {p p' : Place} {depth depth' : Nat} {s : List Char} (k : Nat)
    (h : read strict p depth s = some (p', depth')) :
    read strict p (depth + k) s = some (p', depth' + k) := by
  induction s generalizing p depth with
  | nil =>
    simp only [read, Option.some.injEq, Prod.mk.injEq] at h ⊢
    exact ⟨h.1, by rw [h.2]⟩
  | cons c s ih =>
    rw [read] at h ⊢
    cases hd : p.depthAfter strict depth c with
    | none => rw [hd] at h; cases h
    | some d =>
      rw [hd] at h
      have hk : p.depthAfter strict (depth + k) c = some (d + k) := by
        cases p with
        | margin => exact depthAfter_strict_add k hd
        | directive =>
          simp only [Place.depthAfter, Option.some.injEq] at hd ⊢
          omega
        | within m => exact depthAfter_strict_add k hd
      rw [hk]
      exact ih h

theorem nextWith_strict_eq_some_iff {e e' : LineEnd} {line : List Char} :
    e.nextWith strict line = some e' ↔ ∀ k, (e.deepen k).next line = e'.deepen k := by
  unfold LineEnd.nextWith LineEnd.next LineEnd.deepen
  by_cases hd : e.carry = .code ∧ isDirective line = true
  · simp only [if_pos hd, Option.some.injEq]
    constructor
    · rintro rfl k
      rfl
    · intro h
      exact h 0
  · simp only [if_neg hd]
    exact scanWith_strict_eq_some_iff

theorem next_of_nextWith_strict_none {e : LineEnd} {line : List Char}
    (h : e.nextWith strict line = none) : e.next line = (e.deepen 1).next line := by
  unfold LineEnd.nextWith at h
  unfold LineEnd.next LineEnd.deepen
  split at h
  · cases h
  · rename_i hd
    rw [scanWith_carried, Option.map_eq_none_iff] at h
    rw [if_neg hd, if_neg hd, ← Option.some_inj, some_scan, some_scan, run_strict_none h]

/-- **A text is read without refusal exactly when nothing is cut off**: its scan ends as many
levels deeper as it was begun deeper. -/
theorem after_strict_eq_some_iff : ∀ {lines : List (List Char)} {e e' : LineEnd},
    e.after strict lines = some e' ↔
      ∀ k, (e.deepen k).after cutOff lines = some (e'.deepen k)
  | [], e, e' => by
    simp only [LineEnd.after, Option.some.injEq]
    constructor
    · rintro rfl k
      rfl
    · intro h
      exact h 0
  | line :: rest, e, e' => by
    simp only [LineEnd.after, nextWith_cutOff, Option.bind_some]
    cases hnext : e.nextWith strict line with
    | some e₁ =>
      have hk := nextWith_strict_eq_some_iff.1 hnext
      simp only [Option.bind_some, hk]
      exact after_strict_eq_some_iff
    | none =>
      refine iff_of_false (by simp) fun h => ?_
      have hsame : (e.deepen 0).next line = (e.deepen 1).next line :=
        next_of_nextWith_strict_none hnext
      have h0 := h 0
      rw [hsame, h 1, Option.some_inj] at h0
      simp [LineEnd.deepen] at h0

theorem after_cutOff : ∀ (lines : List (List Char)) (e : LineEnd),
    e.after cutOff lines = some (lines.foldl LineEnd.next e)
  | [], _ => rfl
  | line :: rest, e => by
    rw [LineEnd.after, nextWith_cutOff, Option.bind_some, after_cutOff rest, List.foldl_cons]

/-- The scan of a text ends at `e`, and on the way no closing brace of code meets depth zero. -/
structure ScansTo (text : List Char) (e : LineEnd) : Prop where
  scan : (sourceLines text).foldl LineEnd.next .fresh = e
  unrefused : readLines strict .fresh text = some e

/-- What is read without refusal is scanned so. -/
theorem scansTo_of_readLines {text : List Char} {e : LineEnd}
    (h : readLines strict .fresh text = some e) : ScansTo text e := by
  have hscan := after_strict_eq_some_iff.1 h 0
  rw [after_cutOff, Option.some_inj] at hscan
  exact ⟨hscan, h⟩

end PolicyForge.Layout
