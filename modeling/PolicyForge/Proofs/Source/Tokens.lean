import PolicyForge.Proofs.Source.Shape
/-!
# The tokens of a text

What a reader of the generated language sees in a text: words, marks and the contents of verbatim
strings, with blanks and comments left out.  Words are runs of characters of names, dots and colons,
so that a dotted path is one word.  Of the literals of the language only verbatim strings are known,
as a block holds no other; a quote that stands elsewhere would be a mark.

A text that is given in parts has the tokens of its parts, in order, if after every word, literal and
comment the text goes on with something that ends it (`tokens_spelled`).
-/
namespace PolicyForge.Source

open Text

inductive Token where
  | word (s : String)
  | mark (c : Char)
  /-- A verbatim string, by its content. -/
  | text (s : String)
  deriving DecidableEq, Repr

/-- What is being read. -/
inductive Reading where
  /-- A word, or nothing if it is empty. -/
  | word (w : List Char)
  | text (s : List Char)
  /-- A verbatim string may end with the quote before. -/
  | quote (s : List Char)
  | slash
  | atSign
  | comment
  deriving DecidableEq, Repr

namespace Reading

def start : Reading := .word []

/-- What has been read when nothing goes on. -/
def finish : Reading → List Token
  | .word [] => []
  | .word w => [.word (String.ofList w)]
  | .quote s => [.text (String.ofList s)]
  | .slash => [.mark '/']
  | .atSign => [.mark '@']
  | .text _ | .comment => []

/-- A character at which something new begins: a mark at once, or something to read on. -/
def begin (c : Char) : List Token × Reading :=
  if c == '/' then ([], .slash)
  else if c == '@' then ([], .atSign)
  else if isSupportPart c then ([], .word [c])
  else if isBlank c then ([], start)
  else ([.mark c], start)

/-- What goes on with a character, if it does. -/
def extend (r : Reading) (c : Char) : Option Reading :=
  match r with
  | .word w => if isSupportPart c then some (.word (w ++ [c])) else none
  | .text s => if c == '"' then some (.quote s) else some (.text (s ++ [c]))
  | .quote s => if c == '"' then some (.text (s ++ ['"'])) else none
  | .slash => if c == '/' then some .comment else none
  | .atSign => if c == '"' then some (.text []) else none
  | .comment => if isLineBreak c then none else some .comment

def step (r : Reading) (c : Char) : List Token × Reading :=
  match r.extend c with
  | some r' => ([], r')
  | none => (r.finish ++ (begin c).1, (begin c).2)

/-- The tokens that are complete after a text, and what is being read then. -/
def run (r : Reading) : List Char → List Token × Reading
  | [] => ([], r)
  | c :: s => ((r.step c).1 ++ ((r.step c).2.run s).1, ((r.step c).2.run s).2)

theorem run_append (r : Reading) (s t : List Char) :
    r.run (s ++ t) = ((r.run s).1 ++ ((r.run s).2.run t).1, ((r.run s).2.run t).2) := by
  induction s generalizing r with
  | nil => rfl
  | cons c s ih => simp only [List.cons_append, run, ih, List.append_assoc]

/-- What cannot go on with a character is complete there, and something new begins. -/
theorem run_cons_of_extend_eq_none {r : Reading} {c : Char} (hr : r.extend c = none)
    (hstart : start.extend c = none) (s : List Char) :
    r.run (c :: s) = (r.finish ++ (start.run (c :: s)).1, (start.run (c :: s)).2) := by
  simp only [run, step, hr, hstart, List.append_assoc]
  rfl

theorem run_word {w : List Char} (h : ∀ c ∈ w, isSupportPart c = true) (v : List Char) :
    (Reading.word v).run w = ([], .word (v ++ w)) := by
  induction w generalizing v with
  | nil => simp [run]
  | cons c w ih =>
    have hc := h c List.mem_cons_self
    have ih := ih (fun d hd => h d (List.mem_cons_of_mem c hd)) (v ++ [c])
    simp [run, step, extend, hc, ih]

theorem run_doubleQuotes : ∀ (s t : List Char),
    (Reading.text t).run (doubleQuotes s) = ([], .text (t ++ s))
  | [], t => by simp [doubleQuotes, run]
  | c :: s, t => by
    have ih := run_doubleQuotes s (t ++ [c])
    rw [doubleQuotes]
    by_cases hc : c = '"'
    · subst hc
      simp [run, step, extend, ih]
    · simp [run, step, extend, hc, ih]

theorem run_verbatimChars (s : List Char) : start.run (verbatimChars s) = ([], .quote s) := by
  have hopen : start.run ['@', '"'] = ([], .text []) := by decide
  have hclose : (Reading.text s).run ['"'] = ([], .quote s) := by
    simp [run, step, extend]
  rw [show verbatimChars s = ['@', '"'] ++ (doubleQuotes s ++ ['"']) from rfl, run_append, hopen,
    run_append, run_doubleQuotes]
  simp only [List.nil_append, hclose]

theorem run_comment {s : List Char} (h : ∀ c ∈ s, isLineBreak c = false) :
    comment.run s = ([], .comment) := by
  induction s with
  | nil => rfl
  | cons c s ih =>
    have hc := h c List.mem_cons_self
    simp [run, step, extend, hc, ih fun d hd => h d (List.mem_cons_of_mem c hd)]

theorem run_docLine {line : List Char} (h : ∀ c ∈ line, isLineBreak c = false) :
    start.run (docMarker ++ encodeLine line) = ([], .comment) := by
  have hmarker : start.run docMarker = ([], .comment) := by decide
  rw [run_append, hmarker]
  simp only [run_comment fun c hc => isLineBreak_of_mem_encodeLine h hc, List.nil_append]

theorem run_docLines : ∀ {lines : List (List Char)}, lines ≠ [] →
    (∀ line ∈ lines, ∀ c ∈ line, isLineBreak c = false) →
    start.run (join ['\n'] (lines.map fun line => docMarker ++ encodeLine line)) = ([], .comment)
  | [line], _, h => run_docLine (h line List.mem_cons_self)
  | line :: next :: rest, _, h => by
    have ih := run_docLines (List.cons_ne_nil next rest) fun l hl => h l (List.mem_cons_of_mem _ hl)
    have hnewline : comment.run ['\n'] = ([], start) := by decide
    rw [List.map_cons, List.map_cons, join, run_append, run_append,
      run_docLine (h line List.mem_cons_self)]
    · simp only [hnewline, List.nil_append]
      exact ih
    · exact List.cons_ne_nil _ _

/-- No line of a documentation comment ends before its line end. -/
theorem run_docChars (text : List Char) : start.run (docChars text) = ([], .comment) :=
  run_docLines (sourceLines_ne_nil text) fun line hline => not_of_mem_splitOn _ line hline

end Reading

open Reading

def tokens (s : String) : List Token := (start.run s.toList).1 ++ (start.run s.toList).2.finish

/-! ## Texts in parts -/

/-- A text that is one word, or empty. -/
def IsName (s : String) : Prop := ∀ c ∈ s.toList, isSupportPart c = true

theorem IsName.append {s t : String} (hs : IsName s) (ht : IsName t) : IsName (s ++ t) := by
  intro c hc
  rw [String.toList_append] at hc
  rcases List.mem_append.1 hc with hc | hc
  · exact hs c hc
  · exact ht c hc

theorem isName_of_all {s : String} (h : s.toList.all isSupportPart = true) : IsName s :=
  fun c hc => List.all_eq_true.1 h c hc

/-- A part of a text, with its words whole. -/
inductive Part where
  | fixed (s : String)
  | word (s : String) (h : IsName s)
  | value (v : RegistryValue)
  | flag (b : Bool)
  | comment (s : String)

namespace Part

def string : Part → String
  | .fixed s => s
  | .word s _ => s
  | .value v => literal v.toLiteral
  | .flag b => literal (.bool b)
  | .comment s => docComment s

end Part

def Piece.part (p : Piece) : Part :=
  match p with
  | .fixed s => .fixed s
  | .support assembly => .word (supportPath (namespaceName assembly))
      fun _ => isSupportPart_of_mem_supportPath
  | .path s => .word (namespaceName s) fun _ => isSupportPart_of_shape (p := .path s) rfl
  | .typeName s => .word (Source.typeName s) fun _ => isSupportPart_of_shape (p := .typeName s) rfl
  | .memberName s =>
    .word (Source.memberName s) fun _ => isSupportPart_of_shape (p := .memberName s) rfl
  | .value v => .value v
  | .flag b => .flag b
  | .comment s => .comment s

/-- The token of a word, unless the word is empty. -/
def wordTokens (s : String) : List Token := (Reading.word s.toList).finish

theorem wordTokens_of_ne {s : String} (h : s ≠ "") : wordTokens s = [.word s] := by
  have hne : s.toList ≠ [] := by simpa using h
  rw [wordTokens, finish]
  · rw [String.ofList_toList]
  · exact fun hnil => hne hnil

def valueToken : RegistryValue → Token
  | .string s => .text s
  | v => .word (literal v.toLiteral)

def Part.tokens : Part → List Token
  | .fixed s => (start.run s.toList).1
  | .word s _ => wordTokens s
  | .value v => [valueToken v]
  | .flag b => [.word (literal (.bool b))]
  | .comment _ => []

def spelled : List Part → String
  | [] => ""
  | p :: ps => p.string ++ spelled ps

theorem spelled_append (ps qs : List Part) : spelled (ps ++ qs) = spelled ps ++ spelled qs := by
  induction ps with
  | nil => simp [spelled]
  | cons p ps ih => simp [spelled, ih, String.append_assoc]

theorem spelled_map_part (ps : List Piece) : spelled (ps.map Piece.part) = written ps := by
  induction ps with
  | nil => rfl
  | cons p ps ih =>
    have hp : p.part.string = p.string := by cases p <;> rfl
    rw [List.map_cons, spelled, written, hp, ih]

def firstChar : List Part → Option Char
  | .fixed s :: _ => s.toList.head?
  | _ => none

/-- Whether a word or a literal ends in front of the character. -/
def delimits (c : Char) : Bool := !isSupportPart c && c != '"'

/-- Whether a part ends in front of the parts that follow it; fixed text ends by itself. -/
def Part.endsBefore (ps : List Part) : Part → Bool
  | .fixed s => (start.run s.toList).2 == start
  | .word _ _ | .value _ | .flag _ => (firstChar ps).any delimits
  | .comment _ => (firstChar ps).any fun c => delimits c && isLineBreak c

def separated : List Part → Bool
  | [] => true
  | p :: ps => p.endsBefore ps && separated ps

theorem separated_append {ps qs : List Part} (hps : separated ps = true)
    (hqs : separated qs = true) : separated (ps ++ qs) = true := by
  induction ps with
  | nil => exact hqs
  | cons p ps ih =>
    rw [separated, Bool.and_eq_true] at hps
    have hends : p.endsBefore (ps ++ qs) = true := by
      have hfirst : ∀ f, (firstChar ps).any f = true → (firstChar (ps ++ qs)).any f = true := by
        intro f hf
        cases ps with
        | nil => cases hf
        | cons p ps => cases p <;> exact hf
      cases p with
      | fixed s => exact hps.1
      | _ => exact hfirst _ hps.1
    rw [List.cons_append, separated, hends, ih hps.2]
    rfl

theorem separated_flatMap {α : Type} {f : α → List Part} : ∀ {xs : List α},
    (∀ x ∈ xs, separated (f x) = true) → separated (xs.flatMap f) = true
  | [], _ => rfl
  | x :: xs, h => by
    rw [List.flatMap_cons]
    exact separated_append (h x List.mem_cons_self)
      (separated_flatMap fun y hy => h y (List.mem_cons_of_mem x hy))

theorem extend_start_of_delimits {c : Char} (h : delimits c = true) : start.extend c = none := by
  rw [delimits, Bool.and_eq_true, Bool.not_eq_true'] at h
  simp [start, extend, h.1]

theorem extend_word_of_delimits {c : Char} (h : delimits c = true) (w : List Char) :
    (Reading.word w).extend c = none := by
  rw [delimits, Bool.and_eq_true, Bool.not_eq_true'] at h
  simp [extend, h.1]

/-- Parts whose first character is known begin with fixed text. -/
theorem exists_fixed_of_firstChar {ps : List Part} {f : Char → Bool}
    (h : (firstChar ps).any f = true) : ∃ c s rest, ps = .fixed s :: rest ∧
      s.toList.head? = some c ∧ f c = true := by
  cases ps with
  | nil => cases h
  | cons q rest =>
    cases q with
    | fixed s =>
      obtain ⟨c, hc, hfc⟩ := Option.any_eq_true _ _ |>.1 h
      exact ⟨c, s, rest, rfl, hc, hfc⟩
    | _ => cases h

/-- A word is read on until something delimits it. -/
theorem run_isName {s : String} (h : IsName s) :
    start.run s.toList = ([], .word s.toList) := by
  rw [start, run_word h, List.nil_append]

/-- **A part is read whole**, and what it is read as goes on with no character that ends it. -/
theorem run_part {p : Part} {ps : List Part} (hp : ∀ s, p ≠ .fixed s)
    (hends : p.endsBefore ps = true) : ∃ r c s rest, ps = .fixed s :: rest ∧
      s.toList.head? = some c ∧ start.run p.string.toList = ([], r) ∧ r.finish = p.tokens ∧
      r.extend c = none ∧ start.extend c = none := by
  have hpart : ∀ {s : String}, IsWord s.toList → ∀ c ∈ s.toList, isSupportPart c = true :=
    fun h c hc => isSupportPart_of_isPathPart (h.2 c hc)
  cases p with
  | fixed s => exact absurd rfl (hp s)
  | word w h =>
    obtain ⟨c, s, rest, hps, hc, hdelimits⟩ := exists_fixed_of_firstChar hends
    exact ⟨_, c, s, rest, hps, hc, run_isName h, rfl, extend_word_of_delimits hdelimits _,
      extend_start_of_delimits hdelimits⟩
  | flag b =>
    obtain ⟨c, s, rest, hps, hc, hdelimits⟩ := exists_fixed_of_firstChar hends
    have hb := isWord_bool b
    refine ⟨_, c, s, rest, hps, hc, run_isName (hpart hb), ?_, extend_word_of_delimits hdelimits _,
      extend_start_of_delimits hdelimits⟩
    exact wordTokens_of_ne (s := literal (.bool b)) fun he => hb.1 (by rw [he]; rfl)
  | value v =>
    obtain ⟨c, s, rest, hps, hc, hdelimits⟩ := exists_fixed_of_firstChar hends
    rcases isWord_literal v with ⟨t, rfl⟩ | hv
    · refine ⟨.quote t.toList, c, s, rest, hps, hc, ?_, ?_, ?_, extend_start_of_delimits hdelimits⟩
      · rw [Part.string, RegistryValue.toLiteral, literal, toList_verbatim, run_verbatimChars]
      · rw [finish, String.ofList_toList]
        rfl
      · rw [delimits, Bool.and_eq_true, bne_iff_ne] at hdelimits
        simp [extend, hdelimits.2]
    · refine ⟨_, c, s, rest, hps, hc, run_isName (hpart hv), ?_, extend_word_of_delimits hdelimits _,
        extend_start_of_delimits hdelimits⟩
      have htoken := wordTokens_of_ne (s := literal v.toLiteral) fun he => hv.1 (by rw [he]; rfl)
      cases v with
      | string t =>
        have hat : '@' ∈ (verbatim t).toList := by simp [verbatimChars]
        exact absurd (hv.2 '@' hat) (by decide)
      | _ => exact htoken
  | comment t =>
    obtain ⟨c, s, rest, hps, hc, hbreak⟩ := exists_fixed_of_firstChar hends
    rw [Bool.and_eq_true] at hbreak
    refine ⟨.comment, c, s, rest, hps, hc, ?_, rfl, ?_, extend_start_of_delimits hbreak.1⟩
    · rw [Part.string, toList_docComment, run_docChars]
    · simp [extend, hbreak.2]

/-- **A text in separated parts has the tokens of its parts.** -/
theorem run_spelled : ∀ {ps : List Part}, separated ps = true →
    start.run (spelled ps).toList = (ps.flatMap Part.tokens, start)
  | [], _ => rfl
  | p :: ps, h => by
    rw [separated, Bool.and_eq_true] at h
    have ih := run_spelled h.2
    rw [spelled, String.toList_append, run_append, List.flatMap_cons]
    by_cases hp : ∃ s, p = .fixed s
    · obtain ⟨s, rfl⟩ := hp
      have hstart : (start.run s.toList).2 = start := by
        simpa [Part.endsBefore] using h.1
      rw [Part.string, hstart, ih]
      rfl
    · obtain ⟨r, c, s, rest, rfl, hc, hrun, htokens, hextend, hstart⟩ :=
        run_part (fun s hs => hp ⟨s, hs⟩) h.1
      obtain ⟨t, ht⟩ : ∃ t, (spelled (.fixed s :: rest)).toList = c :: t := by
        obtain ⟨u, hu⟩ := List.head?_eq_some_iff.1 hc
        exact ⟨u ++ (spelled rest).toList, by rw [spelled, Part.string, String.toList_append, hu]; rfl⟩
      -- the next part is fixed text, and its first character ends this one
      rw [ht] at ih ⊢
      rw [hrun]
      simp only [List.nil_append]
      rw [run_cons_of_extend_eq_none hextend hstart, ih, htokens]

theorem tokens_spelled {ps : List Part} (h : separated ps = true) :
    tokens (spelled ps) = ps.flatMap Part.tokens := by
  rw [tokens, run_spelled h]
  exact List.append_nil _

end PolicyForge.Source
