import PolicyForge.Layout.Scan
/-!
# The scan by positions

`scanFrom` takes characters off the front of a line.  Here the line stays whole and a `Cursor` moves
over it: a turn looks at up to three characters and goes behind those it has decided, and behind a
whole quoted literal in one leap (`skipQuoted`).  Every turn moves on and none leaves the line
(`turn_of_advance`), so the turns come to an end there, with the result of the scan
(`exists_turns`).
-/
namespace PolicyForge.Layout

/-- What stands at a position is what the rest of the line from there starts with. -/
theorem drop_of_getElem? {chars : List Char} {i : Nat} {c : Char} (h : chars[i]? = some c) :
    chars.drop i = c :: chars.drop (i + 1) := by
  obtain ⟨hi, rfl⟩ := List.getElem?_eq_some_iff.1 h
  exact List.drop_eq_getElem_cons hi

theorem getElem?_of_drop {chars t : List Char} {i : Nat} {c : Char} (h : chars.drop i = c :: t) :
    chars[i]? = some c ∧ chars.drop (i + 1) = t := by
  constructor
  · rw [← List.head?_drop, h, List.head?_cons]
  · rw [← List.drop_drop (i := 1), h, List.drop_one, List.tail_cons]

/-! ## Quoted literals -/

/-- The position behind a quoted literal, from a position within it.  A backslash takes the
character after it along, and a literal that is not closed ends with its line. -/
def closeQuoted (quote : Char) (chars : List Char) (i : Nat) : Nat :=
  if h : i < chars.length then
    if chars[i] == '\\' then closeQuoted quote chars (i + 2)
    else if chars[i] == quote then i + 1
    else closeQuoted quote chars (i + 1)
  else chars.length
termination_by chars.length - i

/-- The position behind the quoted literal that opens at `start`. -/
def skipQuoted (quote : Char) (chars : List Char) (start : Nat) : Nat :=
  closeQuoted quote chars (start + 1)

/-- **No literal ends behind its line**, though a backslash at the end steps over it. -/
theorem closeQuoted_le (quote : Char) (chars : List Char) (i : Nat) :
    closeQuoted quote chars i ≤ chars.length := by
  fun_induction closeQuoted quote chars i with
  | case1 i _ _ ih => exact ih
  | case2 i hi _ _ => exact hi
  | case3 i _ _ _ ih => exact ih
  | case4 => exact Nat.le_refl _

theorem le_closeQuoted {quote : Char} {chars : List Char} {i : Nat} (hi : i ≤ chars.length) :
    i ≤ closeQuoted quote chars i := by
  fun_induction closeQuoted quote chars i with
  | case1 i hlt _ ih =>
    by_cases hnext : i + 2 ≤ chars.length
    · exact Nat.le_of_add_right_le (ih hnext)
    · rw [closeQuoted, dif_neg (by omega)]
      exact hi
  | case2 i _ _ _ => exact Nat.le_succ i
  | case3 i hlt _ _ ih => exact Nat.le_of_succ_le (ih hlt)
  | case4 => exact hi

/-- **Behind a quoted literal the scan goes on with code.** -/
theorem scanFrom_closeQuoted (quote : Char) (chars : List Char) (i depth : Nat) :
    scanFrom (.quoted quote) depth (chars.drop i) =
      scanFrom (.carried .code) depth (chars.drop (closeQuoted quote chars i)) := by
  fun_induction closeQuoted quote chars i with
  | case1 i hi hc ih =>
    rw [List.drop_eq_getElem_cons hi, beq_iff_eq.1 hc]
    cases hrest : chars.drop (i + 1) with
    | nil =>
      have hend : chars.length ≤ i + 1 := List.drop_eq_nil_iff.1 hrest
      rw [closeQuoted, dif_neg (by omega), List.drop_length]
      simp [scanFrom]
    | cons d rest =>
      rw [← ih, (getElem?_of_drop hrest).2]
      simp [scanFrom]
  | case2 i hi hc hq =>
    rw [List.drop_eq_getElem_cons hi]
    generalize chars[i] = c at hc hq
    simp_all [scanFrom]
  | case3 i hi hc hq ih =>
    rw [List.drop_eq_getElem_cons hi, ← ih]
    generalize chars[i] = c at hc hq
    simp_all [scanFrom]
  | case4 i hi =>
    rw [List.drop_eq_nil_of_le (Nat.le_of_not_lt hi), List.drop_length]
    rfl

/-! ## Turns -/

/-- Where the scan of a line stands. -/
structure Cursor where
  position : Nat
  carry : Carry
  depth : Nat
  deriving DecidableEq, Repr

namespace Cursor

def start (e : LineEnd) : Cursor := ⟨0, e.carry, e.depth⟩

def lineEnd (k : Cursor) : LineEnd := ⟨k.carry, k.depth⟩

/-- The turn at a character of code that starts no comment and no verbatim string. -/
def afterCode (chars : List Char) (i depth : Nat) (c : Char) : Cursor :=
  if c == '"' || c == '\'' then ⟨skipQuoted c chars i, .code, depth⟩
  else ⟨i + 1, .code, if c == '\x7b' then depth + 1 else if c == '\x7d' then depth - 1 else depth⟩

/-- One turn of the scan; none at the end of the line and at a line comment. -/
def advance (chars : List Char) (k : Cursor) : Option Cursor :=
  let i := k.position
  match k.carry, chars[i]?, chars[i + 1]?, chars[i + 2]? with
  | _, none, _, _ => none
  | .blockComment, some '*', some '/', _ => some ⟨i + 2, .code, k.depth⟩
  | .blockComment, some _, _, _ => some ⟨i + 1, .blockComment, k.depth⟩
  | .verbatim, some '"', some '"', _ => some ⟨i + 2, .verbatim, k.depth⟩
  | .verbatim, some '"', _, _ => some ⟨i + 1, .code, k.depth⟩
  | .verbatim, some _, _, _ => some ⟨i + 1, .verbatim, k.depth⟩
  | .code, some '/', some '/', _ => none
  | .code, some '/', some '*', _ => some ⟨i + 2, .blockComment, k.depth⟩
  | .code, some '@', some '"', _ => some ⟨i + 2, .verbatim, k.depth⟩
  | .code, some '@', some '$', some '"' => some ⟨i + 3, .verbatim, k.depth⟩
  | .code, some '$', some '@', some '"' => some ⟨i + 3, .verbatim, k.depth⟩
  | .code, some c, _, _ => some (afterCode chars i k.depth c)

/-- The cursor after a number of turns. -/
def turns (chars : List Char) : Nat → Cursor → Option Cursor
  | 0, k => some k
  | n + 1, k => (k.advance chars).bind (turns chars n)

/-- What a turn does: it moves on, it stays in the line, and the scan goes on where it ends. -/
structure Turn (chars : List Char) (k k' : Cursor) : Prop where
  moves : k.position < k'.position
  stays : k'.position ≤ chars.length
  reads : scanFrom (.carried k.carry) k.depth (chars.drop k.position) =
    scanFrom (.carried k'.carry) k'.depth (chars.drop k'.position)

section

variable {chars : List Char} {i depth depth' : Nat} {carry carry' : Carry} {a b c : Char}

theorem Turn.one (ha : chars[i]? = some a)
    (hreads : scanFrom (.carried carry) depth (a :: chars.drop (i + 1)) =
      scanFrom (.carried carry') depth' (chars.drop (i + 1))) :
    Turn chars ⟨i, carry, depth⟩ ⟨i + 1, carry', depth'⟩ where
  moves := Nat.lt_succ_self i
  stays := (List.getElem?_eq_some_iff.1 ha).1
  reads := by rw [drop_of_getElem? ha, hreads]

theorem Turn.two (ha : chars[i]? = some a) (hb : chars[i + 1]? = some b)
    (hreads : ∀ t, scanFrom (.carried carry) depth (a :: b :: t) =
      scanFrom (.carried carry') depth' t) :
    Turn chars ⟨i, carry, depth⟩ ⟨i + 2, carry', depth'⟩ where
  moves := Nat.lt_add_of_pos_right Nat.two_pos
  stays := (List.getElem?_eq_some_iff.1 hb).1
  reads := by rw [drop_of_getElem? ha, drop_of_getElem? hb, hreads]

theorem Turn.three (ha : chars[i]? = some a) (hb : chars[i + 1]? = some b)
    (hc : chars[i + 2]? = some c)
    (hreads : ∀ t, scanFrom (.carried carry) depth (a :: b :: c :: t) =
      scanFrom (.carried carry') depth' t) :
    Turn chars ⟨i, carry, depth⟩ ⟨i + 3, carry', depth'⟩ where
  moves := Nat.lt_add_of_pos_right (Nat.succ_pos 2)
  stays := (List.getElem?_eq_some_iff.1 hc).1
  reads := by rw [drop_of_getElem? ha, drop_of_getElem? hb, drop_of_getElem? hc, hreads]

end

/-- A character of code that starts no comment and no verbatim string. -/
theorem scanFrom_code_cons {c : Char} {t : List Char} (depth : Nat)
    (hline : c = '/' → t[0]? ≠ some '/') (hblock : c = '/' → t[0]? ≠ some '*')
    (hat : c = '@' → t[0]? ≠ some '"')
    (hatDollar : c = '@' → t[0]? = some '$' → t[1]? ≠ some '"')
    (hdollarAt : c = '$' → t[0]? = some '@' → t[1]? ≠ some '"') :
    scanFrom (.carried .code) depth (c :: t) =
      if c == '"' || c == '\'' then scanFrom (.quoted c) depth t
      else
        scanFrom (.carried .code)
          (if c == '\x7b' then depth + 1 else if c == '\x7d' then depth - 1 else depth) t := by
  rw [scanFrom]
  · split
    · rfl
    · split
      · rfl
      · split <;> rfl
  · rintro _ hc rfl
    exact hline hc rfl
  · rintro _ hc rfl
    exact hblock hc rfl
  · rintro _ hc rfl
    exact hat hc rfl
  · rintro _ hc rfl
    exact hatDollar hc rfl rfl
  · rintro _ hc rfl
    exact hdollarAt hc rfl rfl

/-- **A turn moves on within the line, and the scan with it.** -/
theorem turn_of_advance {chars : List Char} {k k' : Cursor} (h : k.advance chars = some k') :
    Turn chars k k' := by
  obtain ⟨i, carry, depth⟩ := k
  unfold advance at h
  dsimp only at h
  split at h
  case h_1 => cases h
  -- in a block comment
  case h_2 h0 h1 =>
    cases h
    exact .two h0 h1 fun t => by rw [scanFrom]
  case h_3 c h0 hother =>
    cases h
    refine .one h0 ?_
    rw [scanFrom]
    exact fun _ hc ht => hother (getElem?_of_drop ht).1 hc
  -- in a verbatim string
  case h_4 h0 h1 =>
    cases h
    exact .two h0 h1 fun t => by rw [scanFrom]
  case h_5 h0 hother =>
    cases h
    refine .one h0 ?_
    rw [scanFrom]
    exact fun _ ht => hother (getElem?_of_drop ht).1
  case h_6 c hquote h0 _ =>
    cases h
    refine .one h0 ?_
    rw [scanFrom]
    · exact fun _ hc _ => hquote hc
    · exact hquote
  -- in code
  case h_7 => cases h
  case h_8 h0 h1 =>
    cases h
    exact .two h0 h1 fun t => by rw [scanFrom]
  case h_9 h0 h1 =>
    cases h
    exact .two h0 h1 fun t => by rw [scanFrom]
  case h_10 h0 h1 h2 =>
    cases h
    exact .three h0 h1 h2 fun t => by rw [scanFrom]
  case h_11 h0 h1 h2 =>
    cases h
    exact .three h0 h1 h2 fun t => by rw [scanFrom]
  case h_12 c h0 hline hblock hat hatDollar hdollarAt =>
    cases h
    have hreads := scanFrom_code_cons (c := c) (t := chars.drop (i + 1)) depth
      (by simpa using fun hc h1 => hline h1 hc) (by simpa using fun hc h1 => hblock h1 hc)
      (by simpa using fun hc h1 => hat h1 hc)
      (by simpa [Nat.add_assoc] using fun hc h1 h2 => hatDollar h1 h2 hc)
      (by simpa [Nat.add_assoc] using fun hc h1 h2 => hdollarAt h1 h2 hc)
    unfold afterCode
    split
    · rename_i hquote
      rw [if_pos hquote, scanFrom_closeQuoted] at hreads
      have hi : i < chars.length := (List.getElem?_eq_some_iff.1 h0).1
      exact ⟨le_closeQuoted hi, closeQuoted_le _ _ _, by rw [drop_of_getElem? h0, hreads]; rfl⟩
    · rename_i hquote
      rw [if_neg hquote] at hreads
      exact .one h0 hreads

/-- Where there is no turn, the scan has ended. -/
theorem scanFrom_of_advance_eq_none {chars : List Char} {k : Cursor} (h : k.advance chars = none) :
    scanFrom (.carried k.carry) k.depth (chars.drop k.position) = k.lineEnd := by
  obtain ⟨i, carry, depth⟩ := k
  unfold advance at h
  dsimp only at h
  split at h
  case h_1 h0 =>
    rw [List.drop_eq_nil_of_le (List.getElem?_eq_none_iff.1 h0)]
    rfl
  case h_7 h0 h1 =>
    rw [drop_of_getElem? h0, drop_of_getElem? h1]
    rfl
  all_goals cases h

/-- **From any cursor in a line the turns come to an end in the line**, and what is open there is
what the scan ends with. -/
theorem exists_turns {chars : List Char} (k : Cursor) (hk : k.position ≤ chars.length) :
    ∃ n ≤ chars.length - k.position, ∃ k', k.turns chars n = some k' ∧ k'.advance chars = none ∧
      k'.position ≤ chars.length ∧
      k'.lineEnd = scanFrom (.carried k.carry) k.depth (chars.drop k.position) := by
  cases hnext : k.advance chars with
  | none => exact ⟨0, Nat.zero_le _, k, rfl, hnext, hk, (scanFrom_of_advance_eq_none hnext).symm⟩
  | some next =>
    have hturn : Turn chars k next := turn_of_advance hnext
    have hmoves := hturn.moves
    have hstays := hturn.stays
    obtain ⟨n, hn, k', hturns, hstop, hin, hend⟩ := exists_turns next hstays
    refine ⟨n + 1, by omega, k', ?_, hstop, hin, ?_⟩
    · rw [turns, hnext, Option.bind_some, hturns]
    · rw [hend, hturn.reads]
termination_by chars.length - k.position

end Cursor

end PolicyForge.Layout
