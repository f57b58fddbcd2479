import PolicyForge.Proofs.Build.Shown
import PolicyForge.Proofs.Text.Run
import PolicyForge.Proofs.Text.Trim
/-!
# Reports from compiler to reader

What a compiler prints is read as the reports it made, in their order, and each of them is shown with
the number of the line that was printed (`parseDiagnostics_printed`).  A report with a place is found
at the first bracket, since no file before it has one; a report without a place holds no `): `, so
no place can be found in it.
-/
namespace PolicyForge.Build

open Text

/-! ## What is printed -/

structure Figures where
  chars : List Char
  given : chars ≠ []
  ascii : chars.all isAsciiDigit = true

def Figures.value (n : Figures) : Nat := Nat.ofDigitChars 10 n.chars 0

/-- The letters and the number by which a compiler calls a kind of report. -/
structure Code where
  letters : List Char
  given : letters ≠ []
  ascii : letters.all isAsciiLetter = true
  number : Figures

def Code.chars (c : Code) : List Char := c.letters ++ c.number.chars

/-- A text on one line that does not end in a blank. -/
structure Message where
  chars : List Char
  given : chars ≠ []
  unbroken : '\n' ∉ chars
  trimmed : chars.getLast?.any isBlank = false

structure Finding where
  severity : Severity
  code : Code
  message : Message

def Finding.chars (f : Finding) : List Char :=
  f.severity.name.toList ++ ' ' :: (f.code.chars ++ ':' :: ' ' :: f.message.chars)

/-- A place in a file, perhaps with another where it ends. -/
structure Place where
  file : List Char
  given : file ≠ []
  unbracketed : '(' ∉ file
  unbroken : '\n' ∉ file
  line : Figures
  column : Figures
  line_lt : line.value < UInt64.size
  column_lt : column.value < UInt64.size
  stop : Option (Figures × Figures)

/-- The end of a place, with the bracket after it. -/
def Place.closing (p : Place) : List Char :=
  match p.stop with
  | none => [')', ':', ' ']
  | some (line, column) => ',' :: (line.chars ++ ',' :: (column.chars ++ [')', ':', ' ']))

def Place.chars (p : Place) : List Char :=
  p.file ++ '(' :: (p.line.chars ++ ',' :: (p.column.chars ++ p.closing))

def IsPlaceless (s : List Char) : Prop := ¬[')', ':', ' '] <:+: s

instance (s : List Char) : Decidable (IsPlaceless s) := inferInstanceAs (Decidable ¬_)

/-- One line of what a compiler prints. -/
inductive Printed where
  | located (p : Place) (f : Finding)
  | unlocated (f : Finding) (placeless : IsPlaceless f.chars)
  | of (origin : List Char) (given : origin ≠ []) (uncut : ':' ∉ origin)
    (unbroken : '\n' ∉ origin) (f : Finding)
    (placeless : IsPlaceless (origin ++ ' ' :: ':' :: ' ' :: f.chars))

namespace Printed

def finding : Printed → Finding
  | located _ f => f
  | unlocated f _ => f
  | of _ _ _ _ f _ => f

def lead : Printed → List Char
  | located p _ => p.chars
  | unlocated _ _ => []
  | of origin _ _ _ _ _ => origin ++ [' ', ':', ' ']

def chars (r : Printed) : List Char := r.lead ++ r.finding.chars

/-- The place that is printed, counted from zero. -/
def position : Printed → Option Position
  | located p _ => some ⟨p.line.value - 1, p.column.value - 1⟩
  | _ => none

/-- The line that is printed, or the first one. -/
def number : Printed → Nat
  | located p _ => max 1 p.line.value
  | _ => 1

def diagnostic (r : Printed) : Diagnostic :=
  ⟨r.finding.severity, r.position, String.ofList r.finding.code.chars,
    String.ofList r.finding.message.chars⟩

end Printed

inductive LineEnd where
  | lf
  | crlf

def LineEnd.chars : LineEnd → List Char
  | lf => ['\n']
  | crlf => ['\r', '\n']

/-- Reports one to a line, of which the last line need not be ended. -/
def printed (rs : List (Printed × LineEnd)) (last : Option Printed) : List Char :=
  rs.flatMap (fun r => r.1.chars ++ r.2.chars) ++ last.elim [] Printed.chars

/-! ## Figures and codes -/

theorem wordOf?_figures {n : Figures} (hn : n.value < UInt64.size) : wordOf? n.chars = some n.value := by
  have hfold : n.chars.foldl (fun n c => n * 10 + (c.toNat - '0'.toNat)) 0 = n.value := by
    simp [Figures.value, Nat.ofDigitChars, Nat.mul_comm]
  have hgiven : n.chars.isEmpty = false := List.isEmpty_eq_false_iff.2 n.given
  rw [wordOf?, hgiven, n.ascii, Bool.not_true, Bool.or_self, if_neg Bool.false_ne_true, hfold, if_pos hn]

theorem Figures.isAsciiDigit (n : Figures) : ∀ c ∈ n.chars, isAsciiDigit c = true :=
  List.all_eq_true.1 n.ascii

theorem digits?_figures (n : Figures) {c : Char} (hc : isDigit c = false) (rest : List Char) :
    digits? (n.chars ++ c :: rest) = some (n.chars, c :: rest) := by
  have hdigits : ∀ d ∈ n.chars, isDigit d = true :=
    fun d hd => isDigit_of_isAsciiDigit (n.isAsciiDigit d hd)
  have hend : ∀ d ∈ (c :: rest).head?, isDigit d = false := by
    rintro _ ⟨⟩
    exact hc
  rw [digits?, takeWhile_run hdigits hend, dropWhile_run hdigits hend]
  split
  · exact absurd ‹_› n.given
  · rfl

theorem Code.isAsciiLetter (c : Code) : ∀ d ∈ c.letters, isAsciiLetter d = true :=
  List.all_eq_true.1 c.ascii

theorem code?_code (c : Code) (rest : List Char) :
    code? (c.chars ++ ':' :: rest) = some (c.chars, ':' :: rest) := by
  have hend : ∀ d ∈ (c.number.chars ++ ':' :: rest).head?, isAsciiLetter d = false := by
    intro d hd
    cases hn : c.number.chars with
    | nil => exact absurd hn c.number.given
    | cons e es =>
      rw [hn] at hd
      cases hd
      exact isAsciiLetter_of_isAsciiDigit (c.number.isAsciiDigit d (hn ▸ List.mem_cons_self))
  have hgiven : c.letters.isEmpty = false := List.isEmpty_eq_false_iff.2 c.given
  rw [code?, Code.chars, List.append_assoc, takeWhile_run c.isAsciiLetter hend,
    dropWhile_run c.isAsciiLetter hend, hgiven, digits?_figures c.number (by decide)]
  rfl

/-! ## Findings -/

theorem after?_append (s rest : List Char) : after? s (s ++ rest) = some rest := by
  induction s with
  | nil => rfl
  | cons c s ih =>
    rw [List.cons_append, after?, beq_self_eq_true, if_pos rfl, ih]

def reportOf? (s : List Char) (severity : Severity) : Option (Severity × List Char × List Char) := do
  let rest ← after? (severity.name.toList ++ [' ']) s
  let (code, rest) ← code? rest
  let message ← after? [':', ' '] rest
  if message.contains '\n' then none else return (severity, code, message)

theorem report?_eq (s : List Char) : report? s = Severity.all.findSome? (reportOf? s) := rfl

theorem reportOf?_self (f : Finding) :
    reportOf? f.chars f.severity = some (f.severity, f.code.chars, f.message.chars) := by
  have hname : f.chars =
      (f.severity.name.toList ++ [' ']) ++ (f.code.chars ++ ':' :: ' ' :: f.message.chars) := by
    rw [Finding.chars, List.append_assoc, List.singleton_append]
  have hmessage : after? [':', ' '] (':' :: ' ' :: f.message.chars) = some f.message.chars :=
    after?_append [':', ' '] _
  have hunbroken : f.message.chars.contains '\n' = false := by
    rw [← Bool.not_eq_true, List.contains_iff_mem]
    exact f.message.unbroken
  rw [reportOf?, hname, after?_append]
  simp only [Option.bind_eq_bind, Option.bind_some, code?_code, hmessage, hunbroken]
  rfl

/-- The letter that the name of a severity starts with. -/
def Severity.initial : Severity → Char
  | .hidden => 'h'
  | .info => 'i'
  | .warning => 'w'
  | .error => 'e'

theorem Severity.exists_name (s : Severity) : ∃ cs, s.name.toList = s.initial :: cs := by
  cases s <;> exact ⟨_, rfl⟩

theorem Severity.initial_inj : ∀ {s t : Severity}, s.initial = t.initial → s = t := by
  intro s t h
  cases s <;> cases t <;> first | rfl | exact absurd h (by decide)

theorem reportOf?_of_ne (f : Finding) {severity : Severity} (h : severity ≠ f.severity) :
    reportOf? f.chars severity = none := by
  obtain ⟨name, hname⟩ := severity.exists_name
  obtain ⟨actual, hactual⟩ := f.severity.exists_name
  have hinitial : severity.initial ≠ f.severity.initial := fun he => h (Severity.initial_inj he)
  rw [reportOf?, Finding.chars, hname, hactual, List.cons_append, List.cons_append, after?,
    beq_eq_false_iff_ne.2 hinitial]
  rfl

theorem report?_chars (f : Finding) :
    report? f.chars = some (f.severity, f.code.chars, f.message.chars) := by
  have hmem : f.severity ∈ Severity.all := by
    cases f.severity <;> decide
  obtain ⟨before, after, hall⟩ := List.append_of_mem hmem
  rw [report?_eq, List.findSome?_eq_some_iff]
  refine ⟨before, f.severity, after, hall, reportOf?_self f, fun s hs => reportOf?_of_ne f ?_⟩
  rintro rfl
  have hnodup : Severity.all.Nodup := by decide
  rw [hall, List.nodup_append] at hnodup
  exact hnodup.2.2 _ hs _ List.mem_cons_self rfl

/-! ## Places -/

theorem place?_chars (p : Place) (rest : List Char) :
    place? ('(' :: (p.line.chars ++ ',' :: (p.column.chars ++ (p.closing ++ rest)))) =
      some (p.line.chars, p.column.chars, rest) := by
  have hopen : ∀ s : List Char, after? ['('] ('(' :: s) = some s := after?_append ['(']
  have hcomma : ∀ s : List Char, after? [','] (',' :: s) = some s := after?_append [',']
  have hclose : ∀ s : List Char, after? [')', ':', ' '] (')' :: ':' :: ' ' :: s) = some s :=
    after?_append [')', ':', ' ']
  have hmore : ∀ s : List Char, after? [')', ':', ' '] (',' :: s) = none := fun _ => rfl
  have hline : ∀ s : List Char, digits? (p.line.chars ++ ',' :: s) = some (p.line.chars, ',' :: s) :=
    digits?_figures p.line (by decide)
  rw [place?, hopen, Place.closing]
  cases p.stop with
  | none =>
    have hcolumn : ∀ s : List Char,
        digits? (p.column.chars ++ ')' :: s) = some (p.column.chars, ')' :: s) :=
      digits?_figures p.column (by decide)
    simp only [Option.bind_eq_bind, Option.bind_some, List.cons_append, List.nil_append, hline,
      hcomma, hcolumn, hclose]
    rfl
  | some stop =>
    obtain ⟨line, column⟩ := stop
    have hcolumn : ∀ s : List Char,
        digits? (p.column.chars ++ ',' :: s) = some (p.column.chars, ',' :: s) :=
      digits?_figures p.column (by decide)
    have hline' : ∀ s : List Char, digits? (line.chars ++ ',' :: s) = some (line.chars, ',' :: s) :=
      digits?_figures line (by decide)
    have hcolumn' : ∀ s : List Char, digits? (column.chars ++ ')' :: s) = some (column.chars, ')' :: s) :=
      digits?_figures column (by decide)
    simp only [Option.bind_eq_bind, Option.bind_some, List.cons_append, List.nil_append,
      List.append_assoc, hline, hcomma, hcolumn, hmore, hline', hcolumn', hclose]
    rfl

theorem located?_cons {any : Bool} {c : Char} (hbracket : c ≠ '(') (hbreak : c ≠ '\n') (s : List Char) :
    located? any (c :: s) = located? true s := by
  have hplace : place? (c :: s) = none := by
    rw [place?, after?, beq_eq_false_iff_ne.2 hbracket.symm]
    rfl
  rw [located?, hplace, beq_eq_false_iff_ne.2 hbreak]
  cases any <;> rfl

theorem located?_append {file : List Char} (hbracket : '(' ∉ file) (hbreak : '\n' ∉ file)
    (s : List Char) :
    ∀ any, located? any (file ++ s) = located? (any || !file.isEmpty) s := by
  induction file with
  | nil =>
    intro any
    rw [List.nil_append, List.isEmpty_nil, Bool.not_true, Bool.or_false]
  | cons c file ih =>
    intro any
    rw [List.mem_cons, not_or] at hbracket hbreak
    rw [List.cons_append, located?_cons (Ne.symm hbracket.1) (Ne.symm hbreak.1), ih hbracket.2 hbreak.2]
    simp

/-- A place is found at the first bracket. -/
theorem located?_chars (p : Place) (f : Finding) : located? false (p.chars ++ f.chars) =
    some (p.line.chars, p.column.chars, f.severity, f.code.chars, f.message.chars) := by
  have hgiven : p.file.isEmpty = false := List.isEmpty_eq_false_iff.2 p.given
  have hchars : p.chars ++ f.chars =
      p.file ++ '(' :: (p.line.chars ++ ',' :: (p.column.chars ++ (p.closing ++ f.chars))) := by
    simp [Place.chars]
  rw [hchars, located?_append p.unbracketed p.unbroken, hgiven, Bool.not_false, Bool.or_true,
    located?, if_pos rfl, place?_chars, Option.bind_some]
  dsimp only
  rw [report?_chars]
  rfl

/-! ## No places -/

theorem eq_append_of_after? : ∀ {start s rest : List Char}, after? start s = some rest → s = start ++ rest
  | [], _, _, h => Option.some.inj h
  | a :: start, [], _, h => by cases h
  | a :: start, b :: s, rest, h => by
    rw [after?] at h
    split at h
    · rename_i hab
      rw [beq_iff_eq.1 hab, eq_append_of_after? h, List.cons_append]
    · cases h

theorem suffix_of_after? {start s rest : List Char} (h : after? start s = some rest) : rest <:+ s :=
  ⟨start, (eq_append_of_after? h).symm⟩

theorem suffix_of_digits? {s ds rest : List Char} (h : digits? s = some (ds, rest)) : rest <:+ s := by
  rw [digits?] at h
  split at h
  · cases h
  · cases h
    exact List.dropWhile_suffix _

/-- A place holds its end. -/
theorem isInfix_of_place? {s line column rest : List Char} (h : place? s = some (line, column, rest)) :
    [')', ':', ' '] <:+: s := by
  have hclose : ∀ {t rest : List Char}, after? [')', ':', ' '] t = some rest → [')', ':', ' '] <:+: t :=
    fun h => ⟨[], _, (eq_append_of_after? h).symm⟩
  simp only [place?, Option.bind_eq_bind, Option.bind_eq_some_iff] at h
  obtain ⟨s₁, h₁, ⟨line, s₂⟩, h₂, s₃, h₃, ⟨column, s₄⟩, h₄, h⟩ := h
  have hstart : s₄ <:+ s := (suffix_of_digits? h₄).trans ((suffix_of_after? h₃).trans
    ((suffix_of_digits? h₂).trans (suffix_of_after? h₁)))
  have hinfix : [')', ':', ' '] <:+: s₄ := by
    dsimp only at h
    split at h
    · exact hclose ‹_›
    · simp only [Option.bind_eq_some_iff] at h
      obtain ⟨s₅, h₅, ⟨_, s₆⟩, h₆, s₇, h₇, ⟨_, s₈⟩, h₈, _, h₉, -⟩ := h
      have hstop : s₈ <:+ s₄ := (suffix_of_digits? h₈).trans ((suffix_of_after? h₇).trans
        ((suffix_of_digits? h₆).trans (suffix_of_after? h₅)))
      exact (hclose h₉).trans hstop.isInfix
  exact hinfix.trans hstart.isInfix

theorem place?_eq_none {s : List Char} (h : IsPlaceless s) : place? s = none := by
  cases hplace : place? s with
  | none => rfl
  | some r => exact absurd (isInfix_of_place? hplace) h

theorem located?_eq_none : ∀ {s : List Char}, IsPlaceless s → ∀ any, located? any s = none
  | [], _, _ => rfl
  | c :: s, h, any => by
    have hrest : IsPlaceless s := fun hs => h (hs.trans (List.suffix_cons c s).isInfix)
    rw [located?, place?_eq_none h, located?_eq_none hrest]
    cases any <;> simp

/-! ## Lines -/

/-- What stands before the first colon of a finding. -/
def Finding.head (f : Finding) : List Char := f.severity.name.toList ++ ' ' :: f.code.chars

theorem Finding.chars_eq (f : Finding) : f.chars = f.head ++ ':' :: ' ' :: f.message.chars := by
  rw [Finding.chars, Finding.head, List.append_assoc, List.cons_append]

theorem Finding.ne_colon_of_mem_head (f : Finding) : ∀ c ∈ f.head, (c != ':') = true := by
  have hname : ∀ s : Severity, s.name.toList.all (· != ':') = true := by
    intro s
    cases s <;> decide
  intro c hc
  rw [Finding.head, List.mem_append, List.mem_cons, Code.chars, List.mem_append] at hc
  rcases hc with hc | rfl | hc | hc
  · exact List.all_eq_true.1 (hname f.severity) c hc
  · rfl
  · exact bne_iff_ne.2 (ne_of_holds (f.code.isAsciiLetter c hc) (by decide))
  · exact bne_iff_ne.2 (ne_of_holds (f.code.number.isAsciiDigit c hc) (by decide))

theorem Finding.head_ends (f : Finding) : ∃ d ds, f.head.reverse = d :: ds ∧ d ≠ ' ' := by
  cases hreverse : f.code.number.chars.reverse with
  | nil => exact absurd (List.reverse_eq_nil_iff.1 hreverse) f.code.number.given
  | cons d ds =>
    have hd : d ∈ f.code.number.chars := List.mem_reverse.1 (hreverse ▸ List.mem_cons_self)
    refine ⟨d, ds ++ (f.severity.name.toList ++ ' ' :: f.code.letters).reverse, ?_,
      ne_of_holds (f.code.number.isAsciiDigit d hd) (by decide)⟩
    rw [← List.cons_append, ← hreverse, ← List.reverse_append, Finding.head, Code.chars,
      List.append_assoc, List.cons_append]

theorem unlocated?_chars (f : Finding) :
    unlocated? f.chars = some (f.severity, f.code.chars, f.message.chars) := by
  have hend : ∀ c ∈ (':' :: ' ' :: f.message.chars).head?, (c != ':') = false := by
    rintro _ ⟨⟩
    rfl
  obtain ⟨d, ds, hreverse, hd⟩ := f.head_ends
  have hreport : report? (f.head ++ ':' :: ' ' :: f.message.chars) =
      some (f.severity, f.code.chars, f.message.chars) := by
    rw [← f.chars_eq]
    exact report?_chars f
  rw [f.chars_eq, unlocated?, takeWhile_run f.ne_colon_of_mem_head hend, hreverse, hreport]
  split
  · rename_i heq _
    cases heq
    exact absurd rfl hd
  · rfl

theorem unlocated?_of {origin : List Char} (given : origin ≠ []) (uncut : ':' ∉ origin) (f : Finding) :
    unlocated? (origin ++ ' ' :: ':' :: ' ' :: f.chars) =
      some (f.severity, f.code.chars, f.message.chars) := by
  have hcolon : ∀ c ∈ origin ++ [' '], (c != ':') = true := by
    intro c hc
    rw [bne_iff_ne]
    rcases List.mem_append.1 hc with hc | hc
    · exact fun he => uncut (he ▸ hc)
    · rw [List.mem_singleton.1 hc]
      decide
  have hend : ∀ c ∈ (':' :: ' ' :: f.chars).head?, (c != ':') = false := by
    rintro _ ⟨⟩
    rfl
  have hchars : origin ++ ' ' :: ':' :: ' ' :: f.chars = (origin ++ [' ']) ++ ':' :: ' ' :: f.chars := by
    rw [List.append_assoc, List.singleton_append]
  rw [hchars, unlocated?, takeWhile_run hcolon hend, dropWhile_run hcolon hend, List.reverse_append]
  cases hreverse : origin.reverse with
  | nil => exact absurd (List.reverse_eq_nil_iff.1 hreverse) given
  | cons c cs =>
    have hreport : report? f.chars = some (f.severity, f.code.chars, f.message.chars) := report?_chars f
    simp only [List.reverse_singleton, List.singleton_append, hreport, Option.some_or]

theorem Message.exists_last (m : Message) : ∃ s c, m.chars = s ++ [c] ∧ isBlank c = false := by
  refine ⟨m.chars.dropLast, m.chars.getLast m.given, (List.dropLast_append_getLast m.given).symm, ?_⟩
  have htrimmed := m.trimmed
  rw [List.getLast?_eq_some_getLast m.given] at htrimmed
  exact htrimmed

theorem Printed.exists_last (r : Printed) : ∃ s c, r.chars = s ++ [c] ∧ isBlank c = false := by
  obtain ⟨s, c, hs, hc⟩ := r.finding.message.exists_last
  refine ⟨r.lead ++ (r.finding.head ++ ':' :: ' ' :: s), c, ?_, hc⟩
  simp [Printed.chars, Finding.chars_eq, hs]

theorem Printed.trimEnd_chars (r : Printed) : trimEnd r.chars = r.chars := by
  obtain ⟨s, c, hchars, hc⟩ := r.exists_last
  have hblank : allBlank [c] = false := by
    rw [allBlank, List.all_cons, hc, Bool.false_and]
  rw [hchars, trimEnd_append hblank, trimEnd_cons_of_not_blank hc]
  rfl

theorem Printed.dropReturn_chars (r : Printed) : dropReturn r.chars = r.chars := by
  obtain ⟨s, c, hchars, hc⟩ := r.exists_last
  rw [hchars, dropReturn_append_of_ne (ne_of_holds (p := isBlank) (by decide) hc).symm]

theorem ofLine?_chars (r : Printed) : ofLine? r.chars = some r.diagnostic := by
  rw [ofLine?, r.trimEnd_chars]
  cases r with
  | located p f =>
    rw [Printed.chars, Printed.lead, Printed.finding, located?_chars]
    dsimp only
    rw [wordOf?_figures p.line_lt, wordOf?_figures p.column_lt]
    rfl
  | unlocated f placeless =>
    rw [Printed.chars, Printed.lead, Printed.finding, List.nil_append, located?_eq_none placeless,
      unlocated?_chars]
    rfl
  | of origin given uncut unbroken f placeless =>
    have hchars : (Printed.of origin given uncut unbroken f placeless).chars =
        origin ++ ' ' :: ':' :: ' ' :: f.chars := by
      simp [Printed.chars, Printed.lead, Printed.finding]
    rw [hchars, located?_eq_none placeless, unlocated?_of given uncut]
    rfl

theorem Place.unbroken_chars (p : Place) : '\n' ∉ p.chars := by
  have hfigures : ∀ n : Figures, '\n' ∉ n.chars := fun n h => absurd (n.isAsciiDigit _ h) (by decide)
  have hclosing : '\n' ∉ p.closing := by
    unfold Place.closing
    split <;> simp [hfigures]
  simp [Place.chars, p.unbroken, hfigures, hclosing]

theorem Finding.unbroken_chars (f : Finding) : '\n' ∉ f.chars := by
  have hname : ∀ s : Severity, '\n' ∉ s.name.toList := by
    intro s
    cases s <;> decide
  have hletters : '\n' ∉ f.code.letters := fun h => absurd (f.code.isAsciiLetter _ h) (by decide)
  have hfigures : '\n' ∉ f.code.number.chars :=
    fun h => absurd (f.code.number.isAsciiDigit _ h) (by decide)
  simp [Finding.chars, Code.chars, hname, hletters, hfigures, f.message.unbroken]

theorem Printed.unbroken_chars (r : Printed) : '\n' ∉ r.chars := by
  have hlead : '\n' ∉ r.lead := by
    cases r with
    | located p f => exact p.unbroken_chars
    | unlocated f _ => exact List.not_mem_nil
    | of origin _ _ unbroken f _ => simp [Printed.lead, unbroken]
  simp [Printed.chars, hlead, r.finding.unbroken_chars]

theorem lines_printed (rs : List (Printed × LineEnd)) (last : Option Printed) :
    lines (printed rs last) = (rs.map Prod.fst ++ last.toList).map Printed.chars := by
  induction rs with
  | nil =>
    cases last with
    | none => rfl
    | some r =>
      obtain ⟨s, c, hchars, -⟩ := r.exists_last
      have hgiven : r.chars ≠ [] := by
        rw [hchars]
        exact List.append_ne_nil_of_right_ne_nil s (List.cons_ne_nil c [])
      exact lines_of_unbroken hgiven r.unbroken_chars
  | cons r rs ih =>
    obtain ⟨r, e⟩ := r
    have hprinted : printed ((r, e) :: rs) last = r.chars ++ (e.chars ++ printed rs last) := by
      simp [printed]
    rw [hprinted, List.map_cons, List.cons_append, List.map_cons, ← ih]
    cases e with
    | lf =>
      rw [LineEnd.chars, List.singleton_append, lines_append_break r.unbroken_chars, r.dropReturn_chars]
    | crlf =>
      have hreturn : '\n' ∉ r.chars ++ ['\r'] := by
        simp [r.unbroken_chars]
      have hchars : r.chars ++ (LineEnd.crlf.chars ++ printed rs last) =
          (r.chars ++ ['\r']) ++ '\n' :: printed rs last := by
        simp [LineEnd.chars]
      rw [hchars, lines_append_break hreturn, dropReturn_append_return]

/-! ## What is shown -/

/-- A report whose message is on one line is shown on one line. -/
theorem lines_formatDiagnostic {d : Diagnostic} (hd : '\n' ∉ d.message.toList) (source : String) :
    lines (formatDiagnostic d source).toList = [(formatDiagnostic d source).toList] := by
  have hnumber : '\n' ∉ Nat.toDigits 10 (d.line + 1) := fun h =>
    absurd (Nat.isDigit_of_mem_toDigits (by decide) (by decide) h) (by decide)
  have hsource : '\n' ∉ ((lines source.toList)[d.line]?).getD [] := by
    cases hline : (lines source.toList)[d.line]? with
    | none => exact List.not_mem_nil
    | some line => exact newline_not_mem_of_mem_lines (List.mem_of_getElem? hline)
  rw [formatDiagnostic_eq]
  refine lines_of_unbroken ?_ ?_
  · simp
  · simp [hnumber, hd, hsource]

theorem unbroken_of_report? {s : List Char} {severity : Severity} {code message : List Char}
    (h : report? s = some (severity, code, message)) : '\n' ∉ message := by
  rw [report?_eq] at h
  obtain ⟨severity', -, h⟩ := List.exists_of_findSome?_eq_some h
  simp only [reportOf?, Option.bind_eq_bind, Option.bind_eq_some_iff] at h
  obtain ⟨_, -, ⟨_, _⟩, -, message', -, h⟩ := h
  split at h
  · cases h
  · rename_i hbreak
    cases h
    rwa [List.contains_iff_mem] at hbreak

theorem unbroken_of_located? :
    ∀ {any : Bool} {s : List Char} {line column : List Char} {severity : Severity}
    {code message : List Char}, located? any s = some (line, column, severity, code, message) →
    '\n' ∉ message
  | any, c :: s, line, column, severity, code, message, h => by
    rw [located?] at h
    dsimp only at h
    split at h
    · rename_i r hhere
      cases h
      split at hhere
      · simp only [Option.bind_eq_some_iff, Option.map_eq_some_iff] at hhere
        obtain ⟨⟨_, _, rest⟩, -, ⟨_, _, _⟩, hreport, heq⟩ := hhere
        cases heq
        exact unbroken_of_report? hreport
      · cases hhere
    · split at h
      · cases h
      · exact unbroken_of_located? h

theorem unbroken_of_unlocated? {s : List Char} {severity : Severity} {code message : List Char}
    (h : unlocated? s = some (severity, code, message)) : '\n' ∉ message := by
  unfold unlocated? at h
  rcases Option.or_eq_some_iff.1 h with h | ⟨-, h⟩
  · split at h
    · exact unbroken_of_report? h
    · cases h
  · exact unbroken_of_report? h

/-- What is read as a report has its message on one line. -/
theorem unbroken_of_parseDiagnostics {output : String} {d : Diagnostic}
    (hd : d ∈ parseDiagnostics output) :
    '\n' ∉ d.message.toList := by
  rw [parseDiagnostics, List.mem_filterMap] at hd
  obtain ⟨line, -, hline⟩ := hd
  unfold ofLine? at hline
  dsimp only at hline
  split at hline
  · rename_i hlocated
    simp only [Option.bind_eq_bind, Option.bind_eq_some_iff] at hline
    obtain ⟨_, -, _, -, hline⟩ := hline
    cases hline
    rw [String.toList_ofList]
    exact unbroken_of_located? hlocated
  · obtain ⟨⟨_, _, _⟩, hunlocated, rfl⟩ := Option.map_eq_some_iff.1 hline
    rw [String.toList_ofList]
    exact unbroken_of_unlocated? hunlocated

theorem unbroken_formatDiagnostic {d : Diagnostic} (hd : '\n' ∉ d.message.toList) (source : String) :
    '\n' ∉ (formatDiagnostic d source).toList := by
  refine newline_not_mem_of_mem_lines (s := (formatDiagnostic d source).toList) ?_
  rw [lines_formatDiagnostic hd]
  exact List.mem_singleton_self _

theorem Printed.line_diagnostic (r : Printed) : r.diagnostic.line + 1 = r.number := by
  cases r with
  | located p f =>
    have hline : (Printed.located p f).diagnostic.line = p.line.value - 1 := rfl
    rw [hline, Printed.number]
    omega
  | unlocated | of => rfl

theorem Printed.number_lt (r : Printed) : r.number < UInt64.size := by
  have hone : 1 < UInt64.size := by decide
  cases r with
  | located p f => exact Nat.max_lt.2 ⟨hone, p.line_lt⟩
  | unlocated | of => exact hone

/-- **Reports survive from compiler to reader**: what is printed is read as the reports that were made,
in order, and each of them is shown on one line, with the number of the line that was printed. -/
theorem parseDiagnostics_printed :
    (∀ (rs : List (Printed × LineEnd)) (last : Option Printed),
      parseDiagnostics (String.ofList (printed rs last)) =
      (rs.map Prod.fst ++ last.toList).map Printed.diagnostic) ∧
    ∀ (r : Printed) (source : String), r.diagnostic.line + 1 < UInt64.size ∧
      lines (formatDiagnostic r.diagnostic source).toList =
        [(formatDiagnostic r.diagnostic source).toList] ∧
      ∃ text, formatDiagnostic r.diagnostic source =
        "[ln." ++ toString r.number ++ "] " ++ r.diagnostic.message ++ " - " ++ text := by
  refine ⟨fun rs last => ?_, fun r source => ⟨?_, ?_, ?_⟩⟩
  · have hread : ofLine? ∘ Printed.chars = some ∘ Printed.diagnostic := funext ofLine?_chars
    rw [parseDiagnostics, String.toList_ofList, lines_printed, List.filterMap_map, hread,
      List.filterMap_eq_map]
  · rw [r.line_diagnostic]
    exact r.number_lt
  · refine lines_formatDiagnostic ?_ source
    rw [Printed.diagnostic, String.toList_ofList]
    exact r.finding.message.unbroken
  · rw [formatDiagnostic_eq, r.line_diagnostic]
    exact ⟨_, rfl⟩

/-- A report with a place, one without, and one of the compiler as a whole, each ended in its own way. -/
theorem parseDiagnostics_printed_mixed :
    let numbered (digits : List Char) (given : digits ≠ []) (ascii : digits.all isAsciiDigit = true) :
        Code := ⟨"CS".toList, by decide, by decide, digits, given, ascii⟩
    let missing : Finding :=
      ⟨.error, numbered "1002".toList (by decide) (by decide),
        "; expected".toList, by decide, by decide, by decide⟩
    let assumed : Finding :=
      ⟨.warning, numbered "1701".toList (by decide) (by decide),
        "assuming R 8.0".toList, by decide, by decide, by decide⟩
    let absent : Finding :=
      ⟨.error, numbered "0006".toList (by decide) (by decide),
        "no R.dll".toList, by decide, by decide, by decide⟩
    let place : Place :=
      ⟨"/out/Lib.cs".toList, by decide, by decide, by decide, ⟨"12".toList, by decide, by decide⟩,
        ⟨"5".toList, by decide, by decide⟩, by decide, by decide, none⟩
    let located := Printed.located place missing
    let output := String.ofList (printed
      [(located, .crlf), (.unlocated assumed (by decide +kernel), .lf)]
      (some (.of "CSC".toList (by decide) (by decide) (by decide) absent (by decide +kernel))))
    output = "/out/Lib.cs(12,5): error CS1002: ; expected\r\nwarning CS1701: assuming R 8.0\n" ++
        "CSC : error CS0006: no R.dll" ∧
      parseDiagnostics output =
        [⟨.error, some ⟨11, 4⟩, "CS1002", "; expected"⟩,
          ⟨.warning, none, "CS1701", "assuming R 8.0"⟩,
          ⟨.error, none, "CS0006", "no R.dll"⟩] ∧
      ∃ shown, formatDiagnostic located.diagnostic "class A" = "[ln.12] ; expected - " ++ shown := by
  intro numbered missing assumed absent place located output
  obtain ⟨hread, hshow⟩ := parseDiagnostics_printed
  obtain ⟨-, -, shown, hshown⟩ := hshow located "class A"
  have hlead : "[ln." ++ toString located.number ++ "] " ++ located.diagnostic.message ++ " - " =
      "[ln.12] ; expected - " := by decide +kernel
  rw [hlead] at hshown
  refine ⟨by decide +kernel, ?_, shown, hshown⟩
  rw [hread]
  decide +kernel

end PolicyForge.Build
