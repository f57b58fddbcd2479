import PolicyForge.Layout.Scan
import PolicyForge.Proofs.Text.Trim
/-!
# The scan as one reading from left to right

`scanFrom` looks ahead: what a slash, an at sign or a quote means depends on what follows it.  Here
the same scan is a machine that takes one character at a time and keeps in its `Mode` what it has
not decided yet, so that reading two parts of a line is reading the first and then the second
(`run_append`).  `scanWith_eq_run` says that the two agree.

What a closing brace does to the depth is left open as `close`: `cutOff` stops at zero, as
`scanFrom` does, and `strict` refuses to close what is not open.
-/
namespace PolicyForge.Layout

/-! ## Closing braces -/

/-- The depth after a closing brace that is cut off at zero. -/
def cutOff (depth : Nat) : Option Nat := some (depth - 1)

/-- The depth after a closing brace, if there is something to close. -/
def strict : Nat → Option Nat
  | 0 => none
  | depth + 1 => some depth

/-- The scan of a line, with `close` saying what a closing brace does; none if it refuses one. -/
def scanWith (close : Nat → Option Nat) : Inside → Nat → List Char → Option LineEnd
  | .carried c, depth, [] => some ⟨c, depth⟩
  | .quoted _, depth, [] => some ⟨.code, depth⟩
  | .carried .blockComment, depth, '*' :: '/' :: s => scanWith close (.carried .code) depth s
  | .carried .blockComment, depth, _ :: s => scanWith close (.carried .blockComment) depth s
  | .carried .verbatim, depth, '"' :: '"' :: s => scanWith close (.carried .verbatim) depth s
  | .carried .verbatim, depth, '"' :: s => scanWith close (.carried .code) depth s
  | .carried .verbatim, depth, _ :: s => scanWith close (.carried .verbatim) depth s
  | .carried .code, depth, '/' :: '/' :: _ => some ⟨.code, depth⟩
  | .carried .code, depth, '/' :: '*' :: s => scanWith close (.carried .blockComment) depth s
  | .carried .code, depth, '@' :: '"' :: s => scanWith close (.carried .verbatim) depth s
  | .carried .code, depth, '@' :: '$' :: '"' :: s => scanWith close (.carried .verbatim) depth s
  | .carried .code, depth, '$' :: '@' :: '"' :: s => scanWith close (.carried .verbatim) depth s
  | .carried .code, depth, c :: s =>
    if c == '"' || c == '\'' then scanWith close (.quoted c) depth s
    else if c == '\x7b' then scanWith close (.carried .code) (depth + 1) s
    else if c == '\x7d' then (close depth).bind fun depth => scanWith close (.carried .code) depth s
    else scanWith close (.carried .code) depth s
  | .quoted _, depth, ['\\'] => some ⟨.code, depth⟩
  | .quoted q, depth, '\\' :: _ :: s => scanWith close (.quoted q) depth s
  | .quoted q, depth, c :: s =>
    if c == q then scanWith close (.carried .code) depth s else scanWith close (.quoted q) depth s

/-- Cut off at zero, this is the scan. -/
theorem scanWith_cutOff (i : Inside) (depth : Nat) (s : List Char) :
    scanWith cutOff i depth s = some (scanFrom i depth s) := by
  fun_induction scanFrom i depth s <;> simp_all [scanWith, cutOff]

/-! ## The machine -/

/-- What one character at a time leaves open, including what is not decided before the next. -/
inductive Mode where
  | code
  | slash
  | atSign
  | dollar
  | atDollar
  | dollarAt
  | lineComment
  | blockComment
  /-- After a star in a block comment. -/
  | star
  | verbatim
  /-- After a quote in a verbatim string: its end, or the first half of a doubled quote. -/
  | verbatimQuote
  | quoted (quote : Char)
  /-- After a backslash in a quoted literal. -/
  | escape (quote : Char)
  deriving DecidableEq, Repr

namespace Mode

/-- What the scan is inside of, before the characters that are not decided yet. -/
def inside : Mode → Inside
  | .blockComment | .star => .carried .blockComment
  | .verbatim | .verbatimQuote => .carried .verbatim
  | .quoted q | .escape q => .quoted q
  | _ => .carried .code

/-- The characters that are not decided yet. -/
def pending : Mode → List Char
  | .slash => ['/']
  | .atSign => ['@']
  | .dollar => ['$']
  | .atDollar => ['@', '$']
  | .dollarAt => ['$', '@']
  | .lineComment => ['/', '/']
  | .star => ['*']
  | .verbatimQuote => ['"']
  | .escape _ => ['\\']
  | _ => []

/-- What stays open when the line ends. -/
def carry : Mode → Carry
  | .blockComment | .star => .blockComment
  | .verbatim => .verbatim
  | _ => .code

/-- The mode of a line's start. -/
def ofCarry : Carry → Mode
  | .code => .code
  | .blockComment => .blockComment
  | .verbatim => .verbatim

/-- Whether the next character is code unless it belongs to what is pending. -/
def isCode : Mode → Bool
  | .code | .slash | .atSign | .dollar | .atDollar | .dollarAt | .verbatimQuote => true
  | _ => false

/-- The mode after a character of code. -/
def afterCode (c : Char) : Mode :=
  if c == '/' then .slash
  else if c == '@' then .atSign
  else if c == '$' then .dollar
  else if c == '"' || c == '\'' then .quoted c
  else .code

/-- The mode after one more character. -/
def next : Mode → Char → Mode
  | .code, c => afterCode c
  | .slash, c =>
    if c == '/' then .lineComment else if c == '*' then .blockComment else afterCode c
  | .atSign, c => if c == '"' then .verbatim else if c == '$' then .atDollar else afterCode c
  | .dollar, c => if c == '@' then .dollarAt else afterCode c
  | .atDollar, c => if c == '"' then .verbatim else if c == '@' then .dollarAt else afterCode c
  | .dollarAt, c => if c == '"' then .verbatim else if c == '$' then .atDollar else afterCode c
  | .lineComment, _ => .lineComment
  | .blockComment, c => if c == '*' then .star else .blockComment
  | .star, c => if c == '/' then .code else if c == '*' then .star else .blockComment
  | .verbatim, c => if c == '"' then .verbatimQuote else .verbatim
  | .verbatimQuote, c => if c == '"' then .verbatim else afterCode c
  | .quoted q, c => if c == '\\' then .escape q else if c == q then .code else .quoted q
  | .escape q, _ => .quoted q

end Mode

/-- The depth after one more character, by the mode before it. -/
def depthAfter (close : Nat → Option Nat) (m : Mode) (depth : Nat) (c : Char) : Option Nat :=
  if m.isCode && c == '\x7b' then some (depth + 1)
  else if m.isCode && c == '\x7d' then close depth
  else some depth

/-- The machine on the rest of a line. -/
def run (close : Nat → Option Nat) : Mode → Nat → List Char → Option (Mode × Nat)
  | m, depth, [] => some (m, depth)
  | m, depth, c :: s =>
    match depthAfter close m depth c with
    | none => none
    | some depth => run close (m.next c) depth s

variable {close : Nat → Option Nat}

/-- Running over two parts is running over the first, then the second. -/
theorem run_append (m : Mode) (depth : Nat) (s t : List Char) :
    run close m depth (s ++ t) = (run close m depth s).bind fun r => run close r.1 r.2 t := by
  induction s generalizing m depth with
  | nil => rfl
  | cons c s ih =>
    rw [List.cons_append, run, run]
    cases depthAfter close m depth c with
    | none => rfl
    | some d => exact ih (m.next c) d

/-- A line that ends in the middle of what is not decided ends as that stands. -/
theorem scanWith_pending (m : Mode) (depth : Nat) :
    scanWith close m.inside depth m.pending = some ⟨m.carry, depth⟩ := by
  cases m <;> simp [Mode.inside, Mode.pending, Mode.carry, scanWith]

/-- A character of code that nothing is pending for. -/
theorem scanWith_code_cons (depth : Nat) (c : Char) (s : List Char) :
    scanWith close (.carried .code) depth (c :: s) =
      (depthAfter close .code depth c).bind fun depth =>
        scanWith close (Mode.afterCode c).inside depth ((Mode.afterCode c).pending ++ s) := by
  by_cases hs : c = '/'
  · subst hs; rfl
  by_cases ha : c = '@'
  · subst ha; rfl
  by_cases hd : c = '$'
  · subst hd; rfl
  by_cases hq : c = '"' ∨ c = '\''
  · rcases hq with rfl | rfl <;> simp [scanWith, depthAfter, Mode.afterCode, Mode.inside, Mode.pending]
  · have hcode : Mode.afterCode c = .code := by simp [Mode.afterCode, hs, ha, hd, hq]
    rw [hcode]
    by_cases ho : c = '\x7b'
    · subst ho; simp [scanWith, depthAfter, Mode.isCode, Mode.inside, Mode.pending]
    by_cases hc : c = '\x7d'
    · subst hc; simp [scanWith, depthAfter, Mode.isCode, Mode.inside, Mode.pending]
    · simp [scanWith, depthAfter, Mode.inside, Mode.pending, hs, ha, hd, hq, ho, hc]

/-- **One character of the scan is one step of the machine.** -/
theorem scanWith_cons (m : Mode) (depth : Nat) (c : Char) (s : List Char) :
    scanWith close m.inside depth (m.pending ++ c :: s) =
      (depthAfter close m depth c).bind fun depth =>
        scanWith close (m.next c).inside depth ((m.next c).pending ++ s) := by
  -- what is pending comes to nothing unless `c` completes it, and then `c` is read as code
  have hcode : scanWith close (.carried .code) depth (c :: s) = _ := scanWith_code_cons depth c s
  cases m with
  | code => exact hcode
  | slash =>
    by_cases h : c = '/'
    · subst h; simp [scanWith, depthAfter, Mode.inside, Mode.pending, Mode.next, Mode.isCode]
    by_cases h' : c = '*'
    · subst h'; simp [scanWith, depthAfter, Mode.inside, Mode.pending, Mode.next, Mode.isCode]
    · simp_all [scanWith, depthAfter, Mode.inside, Mode.pending, Mode.next, Mode.isCode]
  | atSign =>
    by_cases h : c = '"'
    · subst h; simp [scanWith, depthAfter, Mode.inside, Mode.pending, Mode.next, Mode.isCode]
    by_cases h' : c = '$'
    · subst h'; simp [depthAfter, Mode.inside, Mode.pending, Mode.next, Mode.isCode]
    · simp_all [scanWith, depthAfter, Mode.inside, Mode.pending, Mode.next, Mode.isCode]
  | dollar =>
    by_cases h : c = '@'
    · subst h; simp [depthAfter, Mode.inside, Mode.pending, Mode.next, Mode.isCode]
    · simp_all [scanWith, depthAfter, Mode.inside, Mode.pending, Mode.next, Mode.isCode]
  | atDollar =>
    by_cases h : c = '"'
    · subst h; simp [scanWith, depthAfter, Mode.inside, Mode.pending, Mode.next, Mode.isCode]
    by_cases h' : c = '@'
    · subst h'; simp [scanWith, depthAfter, Mode.inside, Mode.pending, Mode.next, Mode.isCode]
    · simp_all [scanWith, depthAfter, Mode.inside, Mode.pending, Mode.next, Mode.isCode]
  | dollarAt =>
    by_cases h : c = '"'
    · subst h; simp [scanWith, depthAfter, Mode.inside, Mode.pending, Mode.next, Mode.isCode]
    by_cases h' : c = '$'
    · subst h'; simp [scanWith, depthAfter, Mode.inside, Mode.pending, Mode.next, Mode.isCode]
    · simp_all [scanWith, depthAfter, Mode.inside, Mode.pending, Mode.next, Mode.isCode]
  | lineComment => simp [scanWith, depthAfter, Mode.inside, Mode.pending, Mode.next, Mode.isCode]
  | blockComment =>
    by_cases h : c = '*'
    · subst h; simp [depthAfter, Mode.inside, Mode.pending, Mode.next, Mode.isCode]
    · simp [scanWith, depthAfter, Mode.inside, Mode.pending, Mode.next, Mode.isCode, h]
  | star =>
    by_cases h : c = '/'
    · subst h; simp [scanWith, depthAfter, Mode.inside, Mode.pending, Mode.next, Mode.isCode]
    by_cases h' : c = '*'
    · subst h'; simp [scanWith, depthAfter, Mode.inside, Mode.pending, Mode.next, Mode.isCode]
    · simp [scanWith, depthAfter, Mode.inside, Mode.pending, Mode.next, Mode.isCode, h, h']
  | verbatim =>
    by_cases h : c = '"'
    · subst h; simp [depthAfter, Mode.inside, Mode.pending, Mode.next, Mode.isCode]
    · simp [scanWith, depthAfter, Mode.inside, Mode.pending, Mode.next, Mode.isCode, h]
  | verbatimQuote =>
    by_cases h : c = '"'
    · subst h; simp [scanWith, depthAfter, Mode.inside, Mode.pending, Mode.next, Mode.isCode]
    · simp_all [scanWith, depthAfter, Mode.inside, Mode.pending, Mode.next, Mode.isCode]
  | quoted q =>
    by_cases h : c = '\\'
    · subst h; simp [depthAfter, Mode.inside, Mode.pending, Mode.next, Mode.isCode]
    by_cases h' : c = q
    · subst h'; simp [scanWith, depthAfter, Mode.inside, Mode.pending, Mode.next, Mode.isCode, h]
    · simp [scanWith, depthAfter, Mode.inside, Mode.pending, Mode.next, Mode.isCode, h, h']
  | escape q => simp [scanWith, depthAfter, Mode.inside, Mode.pending, Mode.next, Mode.isCode]

/-- **The scan of a line is the machine's reading of it**, from any mode and with whatever that
mode has not decided in front of the line. -/
theorem scanWith_eq_run (m : Mode) (depth : Nat) (s : List Char) :
    scanWith close m.inside depth (m.pending ++ s) =
      (run close m depth s).map fun r => ⟨r.1.carry, r.2⟩ := by
  induction s generalizing m depth with
  | nil => simpa [run] using scanWith_pending m depth
  | cons c s ih =>
    rw [scanWith_cons, run]
    cases depthAfter close m depth c with
    | none => rfl
    | some d => exact ih (m.next c) d

/-! ## Blanks -/

theorem afterCode_of_isBlank {c : Char} (h : Text.isBlank c = true) : Mode.afterCode c = .code := by
  have hne := fun d => Text.ne_of_holds (d := d) h
  simp [Mode.afterCode, hne '/' rfl, hne '@' rfl, hne '$' rfl, hne '"' rfl, hne '\'' rfl]

theorem depthAfter_of_isBlank {c : Char} (h : Text.isBlank c = true) (m : Mode) (depth : Nat) :
    depthAfter close m depth c = some depth := by
  have hne := fun d => Text.ne_of_holds (d := d) h
  simp [depthAfter, hne '\x7b' rfl, hne '\x7d' rfl]

/-- A blank changes nothing about what stays open at the end of the line. -/
theorem carry_next_of_isBlank {c : Char} (h : Text.isBlank c = true) (m : Mode) :
    (m.next c).carry = m.carry := by
  have hne := fun d => Text.ne_of_holds (d := d) h
  have hc := afterCode_of_isBlank h
  cases m with
  | quoted q => simp only [Mode.next]; split <;> [rfl; split <;> rfl]
  | _ =>
    simp [Mode.next, Mode.carry, hc, hne '/' rfl, hne '*' rfl, hne '@' rfl, hne '$' rfl,
      hne '"' rfl]

theorem run_blanks {b : List Char} (h : Text.allBlank b = true) (m : Mode) (depth : Nat) :
    ∃ m', run close m depth b = some (m', depth) ∧ m'.carry = m.carry := by
  induction b generalizing m with
  | nil => exact ⟨m, rfl, rfl⟩
  | cons c b ih =>
    obtain ⟨hc, hb⟩ : Text.isBlank c = true ∧ Text.allBlank b = true := by
      simpa [Text.allBlank] using h
    obtain ⟨m', hrun, hcarry⟩ := ih hb (m.next c)
    refine ⟨m', ?_, hcarry.trans (carry_next_of_isBlank hc m)⟩
    rw [run, depthAfter_of_isBlank hc]
    exact hrun

/-- Blanks at the start of code are passed over. -/
theorem run_code_blanks {b : List Char} (h : Text.allBlank b = true) (depth : Nat) :
    run close .code depth b = some (.code, depth) := by
  induction b with
  | nil => rfl
  | cons c b ih =>
    obtain ⟨hc, hb⟩ : Text.isBlank c = true ∧ Text.allBlank b = true := by
      simpa [Text.allBlank] using h
    rw [run, depthAfter_of_isBlank hc, Mode.next, afterCode_of_isBlank hc]
    exact ih hb

/-! ## The scan of a line -/

@[simp] theorem inside_ofCarry (c : Carry) : (Mode.ofCarry c).inside = .carried c := by
  cases c <;> rfl

@[simp] theorem pending_ofCarry (c : Carry) : (Mode.ofCarry c).pending = [] := by
  cases c <;> rfl

theorem scanWith_carried (c : Carry) (depth : Nat) (s : List Char) :
    scanWith close (.carried c) depth s =
      (run close (.ofCarry c) depth s).map fun r => ⟨r.1.carry, r.2⟩ := by
  have h : scanWith close _ depth _ = _ := scanWith_eq_run (.ofCarry c) depth s
  simpa using h

theorem some_scan (c : Carry) (depth : Nat) (s : List Char) :
    some (scan c depth s) = (run cutOff (.ofCarry c) depth s).map fun r => ⟨r.1.carry, r.2⟩ := by
  rw [scan, ← scanWith_cutOff, scanWith_carried]

/-- Blanks at the end of a line are nothing to the scan. -/
theorem scan_append_of_allBlank {b : List Char} (h : Text.allBlank b = true) (c : Carry)
    (depth : Nat) (s : List Char) : scan c depth (s ++ b) = scan c depth s := by
  rw [← Option.some_inj, some_scan, some_scan, run_append]
  cases run cutOff (.ofCarry c) depth s with
  | none => rfl
  | some r =>
    obtain ⟨m', hrun, hcarry⟩ : ∃ m', run cutOff r.1 r.2 b = some (m', r.2) ∧ m'.carry = r.1.carry :=
      run_blanks h r.1 r.2
    simp [hrun, hcarry]

/-- Nor are blanks at the start of a line of code. -/
theorem scan_code_append_of_allBlank {b : List Char} (h : Text.allBlank b = true) (depth : Nat)
    (s : List Char) : scan .code depth (b ++ s) = scan .code depth s := by
  rw [← Option.some_inj, some_scan, some_scan, run_append]
  simp [Mode.ofCarry, run_code_blanks h]

/-! ## Refusing to close what is not open -/

theorem run_strict_add {m m' : Mode} {depth depth' : Nat} {s : List Char} (k : Nat)
    (h : run strict m depth s = some (m', depth')) :
    run cutOff m (depth + k) s = some (m', depth' + k) := by
  induction s generalizing m depth with
  | nil =>
    simp only [run, Option.some.injEq, Prod.mk.injEq] at h ⊢
    obtain ⟨rfl, rfl⟩ := h
    exact ⟨rfl, rfl⟩
  | cons c s ih =>
    rw [run] at h ⊢
    cases hd : depthAfter strict m depth c with
    | none => rw [hd] at h; cases h
    | some d =>
      rw [hd] at h
      have hk : depthAfter cutOff m (depth + k) c = some (d + k) := by
        revert hd
        unfold depthAfter
        split
        · simp only [Option.some.injEq]; omega
        · split
          · cases depth with
            | zero => simp [strict]
            | succ n => simp only [strict, cutOff, Option.some.injEq]; omega
          · simp only [Option.some.injEq]; omega
      rw [hk]
      exact ih h

/-- A reading that is refused is one that forgets about a brace: from one level deeper it would
end the same. -/
theorem run_strict_none {m : Mode} {depth : Nat} {s : List Char} (h : run strict m depth s = none) :
    run cutOff m depth s = run cutOff m (depth + 1) s := by
  induction s generalizing m depth with
  | nil => cases h
  | cons c s ih =>
    rw [run] at h ⊢
    rw [run]
    by_cases hopen : (m.isCode && c == '\x7b') = true
    · simp only [depthAfter, hopen, if_true] at h ⊢
      exact ih h
    by_cases hclose : (m.isCode && c == '\x7d') = true
    · simp only [depthAfter, hopen, hclose, if_true, Bool.false_eq_true, if_false] at h ⊢
      cases depth with
      | zero => rfl
      | succ n => exact ih h
    · simp only [depthAfter, hopen, hclose, Bool.false_eq_true, if_false] at h ⊢
      exact ih h

/-- **A line is scanned without refusal exactly when nothing is cut off**: begun any number of
levels deeper, its scan ends as many levels deeper. -/
theorem scanWith_strict_eq_some_iff {c : Carry} {depth : Nat} {s : List Char} {e : LineEnd} :
    scanWith strict (.carried c) depth s = some e ↔
      ∀ k, scan c (depth + k) s = ⟨e.carry, e.depth + k⟩ := by
  constructor
  · intro h k
    rw [scanWith_carried, Option.map_eq_some_iff] at h
    obtain ⟨⟨m, d⟩, hrun, rfl⟩ := h
    rw [← Option.some_inj, some_scan, run_strict_add k hrun]
    rfl
  · intro h
    obtain ⟨carry, top⟩ := e
    cases hrun : run strict (.ofCarry c) depth s with
    | some r =>
      have h0 := h 0
      rw [← Option.some_inj, some_scan, run_strict_add 0 hrun] at h0
      rw [scanWith_carried, hrun]
      simpa using h0
    | none =>
      have h0 := h 0
      rw [← Option.some_inj, some_scan, Nat.add_zero, run_strict_none hrun, ← some_scan, h 1,
        Option.some_inj] at h0
      simp at h0

end PolicyForge.Layout
