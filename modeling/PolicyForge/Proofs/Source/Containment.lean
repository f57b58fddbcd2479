import PolicyForge.Proofs.Layout.Reading
import PolicyForge.Proofs.Source.Shape
/-!
# Nothing gets out of its piece

Whatever a policy says stays within the name, the literal or the comment that it is written in: to
the scan of the layout, a name or a literal in code is code again at its end, at the depth at which
it began, and a comment is a line comment at its end.  So what the scan makes of a text is settled
by the shapes of its pieces (`leads_of_steps`).
-/
namespace PolicyForge.Source

open Layout Text

/-! ## Reading on -/

/-- What may follow a piece: something, and no quote, which could continue a literal. -/
def Follows (rest : List Char) : Prop := ∃ c t, rest = c :: t ∧ c ≠ '"'

/-- Read at `a`, the text leads to `b`, whatever may follow it, and it may itself follow. -/
def Leads (a : Place × Nat) (s : List Char) (b : Place × Nat) : Prop :=
  ∀ rest, Follows rest →
    Follows (s ++ rest) ∧ read strict a.1 a.2 (s ++ rest) = read strict b.1 b.2 rest

theorem leads_nil (a : Place × Nat) : Leads a [] a := fun _ h => ⟨h, rfl⟩

theorem leads_append {a b c : Place × Nat} {s t : List Char} (hs : Leads a s b)
    (ht : Leads b t c) : Leads a (s ++ t) c := by
  intro rest hrest
  obtain ⟨hfollows, hread⟩ := ht rest hrest
  obtain ⟨hfollows', hread'⟩ := hs (t ++ rest) hfollows
  rw [List.append_assoc]
  exact ⟨hfollows', hread'.trans hread⟩

theorem leads_of_read {a b : Place × Nat} {s : List Char} (hhead : s.head? ≠ some '"')
    (h : read strict a.1 a.2 s = some b) : Leads a s b := by
  intro rest hrest
  refine ⟨?_, by rw [read_append, h, Option.bind_some]⟩
  cases s with
  | nil => exact hrest
  | cons c t => exact ⟨c, t ++ rest, rfl, fun hc => hhead (by rw [hc]; rfl)⟩

/-! ## Names -/

/-- Characters that are nothing but code: they begin nothing and end nothing. -/
def isPlain (c : Char) : Bool :=
  !(['/', '@', '$', '"', '\'', '\x7b', '\x7d', '#', '\n'].contains c)

theorem isPlain_of_isSupportPart {c : Char} (h : isSupportPart c = true) : isPlain c = true := by
  have hne : ∀ d, isSupportPart d = false → c ≠ d := fun d => ne_of_holds h
  simp [isPlain, hne '/' rfl, hne '@' rfl, hne '$' rfl, hne '"' rfl, hne '\'' rfl, hne '\x7b' rfl,
    hne '\x7d' rfl, hne '#' rfl, hne '\n' rfl]

theorem run_plain {s : List Char} (h : ∀ c ∈ s, isPlain c = true) (depth : Nat) :
    run strict .code depth s = some (.code, depth) := by
  induction s with
  | nil => rfl
  | cons c s ih =>
    have hne : ∀ d, isPlain d = false → c ≠ d := fun d => ne_of_holds (h c List.mem_cons_self)
    have hdepth : depthAfter strict .code depth c = some depth := by
      simp [depthAfter, hne '\x7b' rfl, hne '\x7d' rfl]
    have hnext : Mode.code.next c = .code := by
      simp [Mode.next, Mode.afterCode, hne '/' rfl, hne '@' rfl, hne '$' rfl, hne '"' rfl,
        hne '\'' rfl]
    rw [run, hdepth, hnext]
    exact ih fun d hd => h d (List.mem_cons_of_mem c hd)

theorem newline_not_mem_of_isPlain {s : List Char} (h : ∀ c ∈ s, isPlain c = true) : '\n' ∉ s :=
  fun hn => ne_of_holds (h _ hn) rfl rfl

theorem read_plain {s : List Char} (h : ∀ c ∈ s, isPlain c = true) (depth : Nat) :
    read strict (.within .code) depth s = some (.within .code, depth) := by
  rw [read_within (newline_not_mem_of_isPlain h), run_plain h]
  rfl

theorem leads_plain {s : List Char} (h : ∀ c ∈ s, isPlain c = true) (depth : Nat) :
    Leads (.within .code, depth) s (.within .code, depth) := by
  refine leads_of_read ?_ (read_plain h depth)
  cases s with
  | nil => simp
  | cons c t => simpa using ne_of_holds (d := '"') (h c List.mem_cons_self) rfl

/-- A line that is nothing but code leads from margin to margin. -/
theorem leads_plain_line {s : List Char} (h : ∀ c ∈ s, isPlain c = true) (depth : Nat) :
    Leads (.margin, depth) (s ++ ['\n']) (.margin, depth) := by
  have hn := newline_not_mem_of_isPlain h
  have hdirective : isDirective s = false := by
    rw [Bool.eq_false_iff]
    intro hd
    have hmem : '#' ∈ trim s := List.mem_of_mem_head? (by simpa [isDirective, startsWith] using hd)
    exact ne_of_holds (h _ (mem_of_mem_trim hmem)) rfl rfl
  have hline : (⟨.code, depth⟩ : LineEnd).nextWith strict s = some ⟨.code, depth⟩ := by
    rw [LineEnd.nextWith, if_neg (by simp [hdirective]), scanWith_carried]
    exact congrArg (Option.map _) (run_plain h depth)
  refine leads_of_read ?_ ?_
  · cases s with
    | nil => simp
    | cons c t => simpa using ne_of_holds (d := '"') (h c List.mem_cons_self) rfl
  · have hread : Layout.read strict _ _ _ = _ := read_line_cons hn ⟨.code, depth⟩ []
    rw [hline] at hread
    exact hread

/-! ## Literals -/

/-- The content of a verbatim string does not end it: a quote comes with another one. -/
theorem read_doubleQuotes (depth : Nat) : ∀ (s : List Char),
    read strict (.within .verbatim) depth (doubleQuotes s) = some (.within .verbatim, depth)
  | [] => rfl
  | c :: s => by
    have ih := read_doubleQuotes depth s
    rw [doubleQuotes]
    by_cases hq : c = '"'
    · subst hq
      exact ih
    · have hnext : (Place.within .verbatim).next c = .within .verbatim := by
        rw [Place.next]
        split
        · rfl
        · simp [Mode.next, hq]
      have hdepth : (Place.within .verbatim).depthAfter strict depth c = some depth := by
        simp [Place.depthAfter, depthAfter, Mode.isCode]
      rw [if_neg (by simpa using hq), Layout.read, hdepth, hnext]
      exact ih

/-- After its closing quote a verbatim string is over, unless another quote follows. -/
theorem read_verbatimQuote {rest : List Char} (h : Follows rest) (depth : Nat) :
    read strict (.within .verbatimQuote) depth rest =
      read strict (.within .code) depth rest := by
  obtain ⟨c, t, rfl, hc⟩ := h
  have hnext : (Place.within .verbatimQuote).next c = (Place.within .code).next c := by
    simp [Place.next, Place.carry, Mode.carry, Mode.next, hc]
  rw [Layout.read, Layout.read, hnext]
  rfl

theorem leads_verbatim (s : List Char) (depth : Nat) :
    Leads (.within .code, depth) (verbatimChars s) (.within .code, depth) := by
  intro rest hrest
  refine ⟨⟨'@', _, rfl, by decide⟩, ?_⟩
  have hcontent : read strict (.within .code) depth (verbatimChars s) =
      some (.within .verbatimQuote, depth) := by
    show read strict (.within .verbatim) depth (doubleQuotes s ++ ['"']) = _
    rw [read_append, read_doubleQuotes]
    rfl
  rw [read_append, hcontent]
  exact read_verbatimQuote hrest depth

theorem leads_word {s : List Char} (h : IsWord s) (depth : Nat) :
    Leads (.within .code, depth) s (.within .code, depth) :=
  leads_plain (fun c hc => isPlain_of_isSupportPart (isSupportPart_of_isPathPart (h.2 c hc))) depth

/-! ## Comments -/

theorem run_lineComment (depth : Nat) : ∀ (s : List Char),
    run strict .lineComment depth s = some (.lineComment, depth)
  | [] => rfl
  | _ :: s => run_lineComment depth s

theorem read_docLine {line : List Char} (h : '\n' ∉ line) (depth : Nat) :
    read strict .margin depth (docMarker ++ encodeLine line) = some (.within .lineComment, depth) := by
  have hmarker : read strict .margin depth docMarker = some (.within .lineComment, depth) := rfl
  rw [read_append, hmarker, Option.bind_some, read_within (newline_not_mem_encodeLine h),
    run_lineComment]
  rfl

theorem read_docLines (depth : Nat) : ∀ {lines : List (List Char)}, lines ≠ [] →
    (∀ line ∈ lines, '\n' ∉ line) →
    read strict .margin depth (join ['\n'] (lines.map fun line => docMarker ++ encodeLine line)) =
      some (.within .lineComment, depth)
  | [line], _, h => read_docLine (h line List.mem_cons_self) depth
  | line :: next :: rest, _, h => by
    have ih := read_docLines depth (List.cons_ne_nil next rest)
      fun l hl => h l (List.mem_cons_of_mem _ hl)
    rw [List.map_cons, List.map_cons, join, List.append_assoc, read_append,
      read_docLine (h line List.mem_cons_self), Option.bind_some, List.singleton_append,
      read_newline]
    · exact ih
    · exact List.cons_ne_nil _ _

/-- Whatever a documentation comment says, it is a line comment at its end. -/
theorem leads_docChars (text : List Char) (depth : Nat) :
    Leads (.margin, depth) (docChars text) (.within .lineComment, depth) := by
  refine leads_of_read ?_ (read_docLines depth (sourceLines_ne_nil text) fun _ =>
    newline_not_mem_of_mem_sourceLines)
  rw [head?_docChars]
  decide

/-! ## Shapes -/

/-- Where a piece of a shape leads, if it may stand where it stands. -/
def Shape.step (s : Shape) (a : Place × Nat) : Option (Place × Nat) :=
  match s with
  | .fixed s => if s.head? = some '"' then none else Layout.read strict a.1 a.2 s
  | .name | .value => if a.1 = .within .code then some a else none
  | .comment => if a.1 = .margin then some (.within .lineComment, a.2) else none

/-- Where pieces of some shapes lead. -/
def steps : List Shape → Place × Nat → Option (Place × Nat)
  | [], a => some a
  | s :: ss, a => (s.step a).bind (steps ss)

theorem leads_fixed {s : List Char} {a b : Place × Nat} (h : (Shape.fixed s).step a = some b) :
    Leads a s b := by
  rw [Shape.step] at h
  split at h
  · cases h
  · rename_i hhead
    exact leads_of_read hhead h

/-- A name or a literal stands in code and leaves code. -/
theorem leads_in_code {s : List Char} {a b : Place × Nat}
    (hs : ∀ depth, Leads (.within .code, depth) s (.within .code, depth))
    (h : (if a.1 = .within .code then some a else none) = some b) : Leads a s b := by
  obtain ⟨place, depth⟩ := a
  split at h
  · rename_i hplace
    obtain rfl : place = .within .code := hplace
    cases h
    exact hs depth
  · cases h

theorem leads_comment {text : List Char} {a b : Place × Nat} (h : Shape.comment.step a = some b) :
    Leads a (docChars text) b := by
  obtain ⟨place, depth⟩ := a
  rw [Shape.step] at h
  split at h
  · rename_i hplace
    obtain rfl : place = .margin := hplace
    cases h
    exact leads_docChars text depth
  · cases h

/-- **A piece leads where its shape says.** -/
theorem leads_of_step {p : Piece} {a b : Place × Nat} (h : p.shape.step a = some b) :
    Leads a p.string.toList b := by
  cases hp : p.shape with
  | fixed s =>
    rw [hp] at h
    rw [toList_of_shape hp]
    exact leads_fixed h
  | name =>
    rw [hp] at h
    refine leads_in_code (leads_plain fun c hc => ?_) h
    exact isPlain_of_isSupportPart (isSupportPart_of_shape hp hc)
  | value =>
    rw [hp] at h
    rcases verbatim_or_isWord_of_shape hp with ⟨s, hs⟩ | hword
    · rw [hs]
      exact leads_in_code (leads_verbatim s) h
    · exact leads_in_code (leads_word hword) h
  | comment =>
    rw [hp] at h
    obtain ⟨text, htext⟩ := docChars_of_shape hp
    rw [htext]
    exact leads_comment h

theorem leads_of_steps : ∀ {ps : List Piece} {a b : Place × Nat},
    steps (ps.map Piece.shape) a = some b → Leads a (written ps).toList b
  | [], a, b, h => by
    cases h
    exact leads_nil a
  | p :: ps, a, b, h => by
    rw [List.map_cons, steps] at h
    obtain ⟨c, hp, hps⟩ := Option.bind_eq_some_iff.1 h
    rw [written, String.toList_append]
    exact leads_append (leads_of_step hp) (leads_of_steps hps)

theorem step_add (k : Nat) {s : Shape} {p p' : Place} {depth depth' : Nat}
    (h : s.step (p, depth) = some (p', depth')) :
    s.step (p, depth + k) = some (p', depth' + k) := by
  unfold Shape.step at h ⊢
  cases s with
  | fixed s =>
    dsimp only at h ⊢
    split at h
    · cases h
    · rw [if_neg (by assumption)]
      exact read_strict_add k h
  | comment =>
    dsimp only at h ⊢
    split at h
    · cases h
      rw [if_pos (by assumption)]
    · cases h
  | _ =>
    dsimp only at h ⊢
    split at h
    · cases h
      rw [if_pos (by assumption)]
    · cases h

/-- Shapes lead to the same place some levels deeper. -/
theorem steps_add (k : Nat) : ∀ {ss : List Shape} {p p' : Place} {depth depth' : Nat},
    steps ss (p, depth) = some (p', depth') → steps ss (p, depth + k) = some (p', depth' + k)
  | [], p, p', depth, depth', h => by
    cases h
    rfl
  | s :: ss, p, p', depth, depth', h => by
    obtain ⟨⟨q, d⟩, hs, hss⟩ := Option.bind_eq_some_iff.1 h
    exact Option.bind_eq_some_iff.2 ⟨(q, d + k), step_add k hs, steps_add k hss⟩

/-- Pieces lead where the evaluation of their shapes at depth `u` says. -/
theorem leads_of_spells (depth u v : Nat) {p q : Place} {ps : List Piece} {ss : List Shape}
    (h : Spells ps ss) (hss : steps ss (p, u) = some (q, v)) :
    Leads (p, depth + u) (written ps).toList (q, depth + v) := by
  have hadd := steps_add depth hss
  rw [Nat.add_comm u, Nat.add_comm v, ← h.map_shape] at hadd
  exact leads_of_steps hadd

theorem leads_written_append {a b c : Place × Nat} {ps qs : List Piece}
    (hps : Leads a (written ps).toList b) (hqs : Leads b (written qs).toList c) :
    Leads a (written (ps ++ qs)).toList c := by
  rw [written_append, String.toList_append]
  exact leads_append hps hqs

end PolicyForge.Source
