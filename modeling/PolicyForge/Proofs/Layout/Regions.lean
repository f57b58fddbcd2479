import PolicyForge.Proofs.Layout.Lexer
import PolicyForge.Proofs.Layout.Positions
import PolicyForge.Proofs.Text.Lines
/-!
# Lines and regions

A text divides into regions: code, comments, strings and characters.  The `Lexer` here tells them
apart in one reading from left to right, one character at a time and line ends like any other
character; it knows nothing of lines that are scanned one by one.  `foldl_scan_eq_lexer` says that
scanning line after line finds the same.

The machine of a line (`Mode`) stands between the two: `Reads` relates its modes to the lexer's
regions, one step keeps them related (`Reads.step`), and a line end brings both to where a line
starts (`Reads.step_newline`).
-/
namespace PolicyForge.Layout

open Text

/-! ## The lexer -/

/-- What a character of a text is part of. -/
inductive Region where
  | code
  | lineComment
  | blockComment
  | verbatim
  | string
  | character
  deriving DecidableEq, Repr

/-- A lexer between two characters.  `held` are the characters read last, as far as the next one may
still complete a mark with them. -/
structure Lexer where
  region : Region
  held : List Char
  depth : Nat
  deriving DecidableEq, Repr

namespace Lexer

def plain (depth : Nat) (c : Char) : Lexer :=
  if c == '"' then ⟨.string, [], depth⟩
  else if c == '\'' then ⟨.character, [], depth⟩
  else if c == '\x7b' then ⟨.code, [], depth + 1⟩
  else if c == '\x7d' then ⟨.code, [], depth - 1⟩
  else if c == '/' || c == '@' || c == '$' then ⟨.code, [c], depth⟩
  else ⟨.code, [], depth⟩

/-- Reads a character of code: with what is held it may open a comment or a verbatim string. -/
def code (held : List Char) (depth : Nat) (c : Char) : Lexer :=
  match held, c with
  | ['/'], '/' => ⟨.lineComment, [], depth⟩
  | ['/'], '*' => ⟨.blockComment, [], depth⟩
  | ['@'], '"' | ['@', '$'], '"' | ['$', '@'], '"' => ⟨.verbatim, [], depth⟩
  | ['@'], '$' | ['$', '@'], '$' => ⟨.code, ['@', '$'], depth⟩
  | ['$'], '@' | ['@', '$'], '@' => ⟨.code, ['$', '@'], depth⟩
  | _, c => plain depth c

/-- Reads a character of a string or a character literal, which end with their line at the latest,
and behind a backslash too. -/
def literal (region : Region) (quote : Char) (held : List Char) (depth : Nat) (c : Char) : Lexer :=
  if c == '\n' then ⟨.code, [], depth⟩
  else if held == ['\\'] then ⟨region, [], depth⟩
  else if c == '\\' then ⟨region, ['\\'], depth⟩
  else if c == quote then ⟨.code, [], depth⟩
  else ⟨region, [], depth⟩

/-- The lexer after one more character. -/
def step (x : Lexer) (c : Char) : Lexer :=
  match x.region with
  | .code => code x.held x.depth c
  | .lineComment => if c == '\n' then ⟨.code, [], x.depth⟩ else x
  | .blockComment =>
    if x.held == ['*'] && c == '/' then ⟨.code, [], x.depth⟩
    else ⟨.blockComment, if c == '*' then ['*'] else [], x.depth⟩
  | .verbatim =>
    if x.held == ['"'] then
      -- a second quote is part of the string, and anything else shows that the first has ended it
      if c == '"' then ⟨.verbatim, [], x.depth⟩ else plain x.depth c
    else ⟨.verbatim, if c == '"' then ['"'] else [], x.depth⟩
  | .string => literal .string '"' x.held x.depth c
  | .character => literal .character '\'' x.held x.depth c

def start (e : LineEnd) : Lexer :=
  match e.carry with
  | .code => ⟨.code, [], e.depth⟩
  | .blockComment => ⟨.blockComment, [], e.depth⟩
  | .verbatim => ⟨.verbatim, [], e.depth⟩

/-- What stays open for a next line: a block comment, or a verbatim string that a quote read last
has not ended. -/
def lineEnd (x : Lexer) : LineEnd :=
  match x.region, x.held with
  | .blockComment, _ => ⟨.blockComment, x.depth⟩
  | .verbatim, [] => ⟨.verbatim, x.depth⟩
  | _, _ => ⟨.code, x.depth⟩

end Lexer

/-! ## The machine of a line -/

/-- Where the machine of a line stands, and where the lexer does. -/
inductive Reads : Mode → Lexer → Prop where
  | code {depth : Nat} : Reads .code ⟨.code, [], depth⟩
  | slash {depth : Nat} : Reads .slash ⟨.code, ['/'], depth⟩
  | atSign {depth : Nat} : Reads .atSign ⟨.code, ['@'], depth⟩
  | dollar {depth : Nat} : Reads .dollar ⟨.code, ['$'], depth⟩
  | atDollar {depth : Nat} : Reads .atDollar ⟨.code, ['@', '$'], depth⟩
  | dollarAt {depth : Nat} : Reads .dollarAt ⟨.code, ['$', '@'], depth⟩
  | lineComment {depth : Nat} : Reads .lineComment ⟨.lineComment, [], depth⟩
  | blockComment {depth : Nat} : Reads .blockComment ⟨.blockComment, [], depth⟩
  | star {depth : Nat} : Reads .star ⟨.blockComment, ['*'], depth⟩
  | verbatim {depth : Nat} : Reads .verbatim ⟨.verbatim, [], depth⟩
  | verbatimQuote {depth : Nat} : Reads .verbatimQuote ⟨.verbatim, ['"'], depth⟩
  | string {depth : Nat} : Reads (.quoted '"') ⟨.string, [], depth⟩
  | stringEscape {depth : Nat} : Reads (.escape '"') ⟨.string, ['\\'], depth⟩
  | character {depth : Nat} : Reads (.quoted '\'') ⟨.character, [], depth⟩
  | characterEscape {depth : Nat} : Reads (.escape '\'') ⟨.character, ['\\'], depth⟩

namespace Reads

theorem start (e : LineEnd) : Reads (.ofCarry e.carry) (.start e) := by
  obtain ⟨carry, depth⟩ := e
  cases carry <;> constructor

theorem lineEnd {m : Mode} {x : Lexer} (h : Reads m x) : x.lineEnd = ⟨m.carry, x.depth⟩ := by
  cases h <;> rfl

theorem afterCode (depth : Nat) (c : Char) :
    Reads (Mode.afterCode c) (Lexer.plain depth c) ∧
      depthAfter cutOff .code depth c = some (Lexer.plain depth c).depth := by
  by_cases hc : c ∈ ['"', '\'', '\x7b', '\x7d', '/', '@', '$']
  · simp only [List.mem_cons, List.not_mem_nil, or_false] at hc
    rcases hc with rfl | rfl | rfl | rfl | rfl | rfl | rfl
    · exact ⟨.string, rfl⟩
    · exact ⟨.character, rfl⟩
    · exact ⟨.code, rfl⟩
    · exact ⟨.code, rfl⟩
    · exact ⟨.slash, rfl⟩
    · exact ⟨.atSign, rfl⟩
    · exact ⟨.dollar, rfl⟩
  · simp only [List.mem_cons, List.not_mem_nil, or_false, not_or] at hc
    simp [Mode.afterCode, Lexer.plain, depthAfter, hc, Reads.code]

/-- A character that comes to nothing with what is pending is read as code on both sides. -/
theorem of_plain {m : Mode} {x : Lexer} {c : Char} (hm : m.next c = Mode.afterCode c)
    (hcode : m.isCode = true) (hx : x.step c = Lexer.plain x.depth c) :
    Reads (m.next c) (x.step c) ∧ depthAfter cutOff m x.depth c = some (x.step c).depth := by
  have hdepth : depthAfter cutOff m x.depth c = depthAfter cutOff .code x.depth c := by
    rw [depthAfter, depthAfter, hcode]
    rfl
  rw [hm, hx, hdepth]
  exact afterCode x.depth c

theorem literal {quote : Char} {region : Region} (depth : Nat) {c : Char} (hc : c ≠ '\n')
    (hopen : Reads (.quoted quote) ⟨region, [], depth⟩)
    (hescape : Reads (.escape quote) ⟨region, ['\\'], depth⟩) :
    Reads (Mode.next (.quoted quote) c) (Lexer.literal region quote [] depth c) ∧
      depthAfter cutOff (.quoted quote) depth c =
        some (Lexer.literal region quote [] depth c).depth := by
  by_cases hback : c = '\\'
  · subst hback
    exact ⟨hescape, rfl⟩
  by_cases hquote : c = quote
  · subst hquote
    simp [Mode.next, Lexer.literal, depthAfter, Mode.isCode, hc, hback, Reads.code]
  · simp [Mode.next, Lexer.literal, depthAfter, Mode.isCode, hc, hback, hquote, hopen]

/-- **One character keeps the two together**, and both count its braces alike. -/
theorem step {m : Mode} {x : Lexer} {c : Char} (h : Reads m x) (hc : c ≠ '\n') :
    Reads (m.next c) (x.step c) ∧ depthAfter cutOff m x.depth c = some (x.step c).depth := by
  cases h with
  | @code depth => exact afterCode depth c
  | slash =>
    by_cases hline : c = '/'
    · subst hline
      exact ⟨.lineComment, rfl⟩
    by_cases hblock : c = '*'
    · subst hblock
      exact ⟨.blockComment, rfl⟩
    exact of_plain (by simp [Mode.next, hline, hblock]) rfl
      (by simp [Lexer.step, Lexer.code, hline, hblock])
  | atSign =>
    by_cases hquote : c = '"'
    · subst hquote
      exact ⟨.verbatim, rfl⟩
    by_cases hdollar : c = '$'
    · subst hdollar
      exact ⟨.atDollar, rfl⟩
    exact of_plain (by simp [Mode.next, hquote, hdollar]) rfl
      (by simp [Lexer.step, Lexer.code, hquote, hdollar])
  | dollar =>
    by_cases hat : c = '@'
    · subst hat
      exact ⟨.dollarAt, rfl⟩
    exact of_plain (by simp [Mode.next, hat]) rfl (by simp [Lexer.step, Lexer.code, hat])
  | atDollar =>
    by_cases hquote : c = '"'
    · subst hquote
      exact ⟨.verbatim, rfl⟩
    by_cases hat : c = '@'
    · subst hat
      exact ⟨.dollarAt, rfl⟩
    exact of_plain (by simp [Mode.next, hquote, hat]) rfl
      (by simp [Lexer.step, Lexer.code, hquote, hat])
  | dollarAt =>
    by_cases hquote : c = '"'
    · subst hquote
      exact ⟨.verbatim, rfl⟩
    by_cases hdollar : c = '$'
    · subst hdollar
      exact ⟨.atDollar, rfl⟩
    exact of_plain (by simp [Mode.next, hquote, hdollar]) rfl
      (by simp [Lexer.step, Lexer.code, hquote, hdollar])
  | lineComment => simp [Mode.next, Lexer.step, hc, depthAfter, Mode.isCode, Reads.lineComment]
  | blockComment =>
    by_cases hstar : c = '*'
    · subst hstar
      exact ⟨.star, rfl⟩
    simp [Mode.next, Lexer.step, depthAfter, Mode.isCode, hstar, Reads.blockComment]
  | star =>
    by_cases hslash : c = '/'
    · subst hslash
      exact ⟨.code, rfl⟩
    by_cases hstar : c = '*'
    · subst hstar
      exact ⟨.star, rfl⟩
    simp [Mode.next, Lexer.step, depthAfter, Mode.isCode, hslash, hstar, Reads.blockComment]
  | verbatim =>
    by_cases hquote : c = '"'
    · subst hquote
      exact ⟨.verbatimQuote, rfl⟩
    simp [Mode.next, Lexer.step, depthAfter, Mode.isCode, hquote, Reads.verbatim]
  | verbatimQuote =>
    by_cases hquote : c = '"'
    · subst hquote
      exact ⟨.verbatim, rfl⟩
    exact of_plain (by simp [Mode.next, hquote]) rfl (by simp [Lexer.step, hquote])
  | string => exact literal _ hc .string .stringEscape
  | stringEscape =>
    simp [Mode.next, Lexer.step, Lexer.literal, hc, depthAfter, Mode.isCode, Reads.string]
  | character => exact literal _ hc .character .characterEscape
  | characterEscape =>
    simp [Mode.next, Lexer.step, Lexer.literal, hc, depthAfter, Mode.isCode, Reads.character]

/-- A line end brings both to where a line starts: line comments, strings and characters are over,
and a quote read last in a verbatim string has ended it. -/
theorem step_newline {m : Mode} {x : Lexer} (h : Reads m x) :
    x.step '\n' = .start ⟨m.carry, x.depth⟩ := by
  cases h <;> rfl

theorem run {m : Mode} {x : Lexer} {s : List Char} (h : Reads m x) (hs : '\n' ∉ s) :
    ∃ m', Reads m' (s.foldl Lexer.step x) ∧
      Layout.run cutOff m x.depth s = some (m', (s.foldl Lexer.step x).depth) := by
  induction s generalizing m x with
  | nil => exact ⟨m, h, rfl⟩
  | cons c s ih =>
    rw [List.mem_cons, not_or] at hs
    obtain ⟨hstep, hdepth⟩ := h.step (Ne.symm hs.1)
    obtain ⟨m', hend, hrun⟩ := ih hstep hs.2
    refine ⟨m', hend, ?_⟩
    rw [Layout.run, hdepth]
    exact hrun

end Reads

/-! ## Lines -/

/-- At the end of a line the lexer stands where the machine does, and so with what the scan leaves
open. -/
theorem exists_reads_line {line : List Char} (hline : '\n' ∉ line) (e : LineEnd) :
    ∃ m, Reads m (line.foldl Lexer.step (.start e)) ∧
      scan e.carry e.depth line = ⟨m.carry, (line.foldl Lexer.step (.start e)).depth⟩ := by
  obtain ⟨m, hend, hrun⟩ := (Reads.start e).run hline
  have hdepth : (Lexer.start e).depth = e.depth := by
    obtain ⟨carry, depth⟩ := e
    cases carry <;> rfl
  rw [hdepth] at hrun
  refine ⟨m, hend, ?_⟩
  rw [← Option.some_inj, some_scan, hrun, Option.map_some]

theorem lineEnd_foldl_line {line : List Char} (hline : '\n' ∉ line) (e : LineEnd) :
    (line.foldl Lexer.step (.start e)).lineEnd = scan e.carry e.depth line := by
  obtain ⟨m, hend, hscan⟩ := exists_reads_line hline e
  rw [hend.lineEnd, hscan]

/-- The lexer starts the next line where the scan ends this one. -/
theorem foldl_line_newline {line : List Char} (hline : '\n' ∉ line) (e : LineEnd)
    (rest : List Char) :
    (line ++ '\n' :: rest).foldl Lexer.step (.start e) =
      rest.foldl Lexer.step (.start (scan e.carry e.depth line)) := by
  obtain ⟨m, hend, hscan⟩ := exists_reads_line hline e
  rw [List.foldl_append, List.foldl_cons, hend.step_newline, hscan]

theorem lineEnd_foldl_lines : ∀ (lines : List (List Char)) (e : LineEnd), lines ≠ [] →
    (∀ line ∈ lines, '\n' ∉ line) →
    ((join ['\n'] lines).foldl Lexer.step (.start e)).lineEnd =
      lines.foldl (fun e line => scan e.carry e.depth line) e
  | [], _, hne, _ => absurd rfl hne
  | [line], e, _, h => lineEnd_foldl_line (h line List.mem_cons_self) e
  | line :: next :: rest, e, _, h => by
    have hrest : ∀ l ∈ next :: rest, '\n' ∉ l := fun l hl => h l (List.mem_cons_of_mem _ hl)
    rw [join_cons _ _ (List.cons_ne_nil next rest), List.append_assoc, List.singleton_append,
      foldl_line_newline (h line List.mem_cons_self), List.foldl_cons]
    exact lineEnd_foldl_lines (next :: rest) _ (List.cons_ne_nil next rest) hrest

/-- **Scanning line after line is reading the whole text once**, from whatever is open and any
depth.  Within a line the scan goes by turns that move on and never leave it: they come to an end
in the line, with what the scan leaves open there, and no quoted literal that is passed over ends
behind it. -/
theorem foldl_scan_eq_lexer :
    (∀ (e : LineEnd) (text : List Char),
      (splitOn (· == '\n') text).foldl (fun e line => scan e.carry e.depth line) e =
        (text.foldl Lexer.step (.start e)).lineEnd) ∧
    (∀ (e : LineEnd) (line : List Char), ∃ n ≤ line.length, ∃ k,
      (Cursor.start e).turns line n = some k ∧ k.advance line = none ∧
        k.position ≤ line.length ∧ k.lineEnd = scan e.carry e.depth line) ∧
    (∀ (line : List Char) (k : Cursor), (k.advance line).all fun k' =>
      k.position < k'.position && k'.position ≤ line.length) ∧
    (∀ (quote : Char) (line : List Char) (start depth : Nat),
      skipQuoted quote line start ≤ line.length ∧
        scanFrom (.quoted quote) depth (line.drop (start + 1)) =
          scanFrom (.carried .code) depth (line.drop (skipQuoted quote line start))) := by
  refine ⟨fun e text => ?_, fun e line => ?_, fun line k => ?_, fun quote line start depth => ?_⟩
  · have hlines : ∀ line ∈ splitOn (· == '\n') text, '\n' ∉ line := by
      intro line hline hn
      simpa using not_of_mem_splitOn text line hline '\n' hn
    rw [← lineEnd_foldl_lines _ e (splitOn_ne_nil _ text) hlines, join_splitOn]
  · exact Cursor.exists_turns (Cursor.start e) (Nat.zero_le _)
  · cases hnext : k.advance line with
    | none => rfl
    | some k' =>
      have hturn := Cursor.turn_of_advance hnext
      simp [hturn.moves, hturn.stays]
  · exact ⟨closeQuoted_le quote line (start + 1), scanFrom_closeQuoted quote line (start + 1) depth⟩

/-- A comment over two lines, a verbatim string with a line end and a doubled quote in it, and a
character that is over with its line behind a backslash. -/
example :
    ("/* \x7b\n\x7b */ @$\"\n\"\"\x7b\" '\\\n\x7b".toList.foldl Lexer.step
      (.start ⟨.code, 0⟩)).lineEnd = ⟨.code, 1⟩ := by
  decide

end PolicyForge.Layout
