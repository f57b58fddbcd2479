import PolicyForge.Proofs.Source.Shape
/-!
# Reading pieces back

Two texts of pieces with the same shapes are the same only if their values are, provided that the
shapes are `delimited`: after every name, literal and comment there is something that shows where
it ends.  This holds whatever follows the texts (`data_eq_of_alike`), so a text of many parts is
read back part by part.
-/
namespace PolicyForge.Source

/-! ## Cutting texts -/

/-- A run of characters satisfying `p` ends where the first one stands that does not. -/
theorem cut_run {p : Char → Bool} : ∀ {s t r r' : List Char} {c d : Char},
    (∀ x ∈ s, p x = true) → (∀ x ∈ t, p x = true) → p c = false → p d = false →
    s ++ c :: r = t ++ d :: r' → s = t ∧ c :: r = d :: r'
  | [], [], _, _, _, _, _, _, _, _, h => ⟨rfl, h⟩
  | [], x :: t, _, _, _, _, _, ht, hc, _, h => by
    have hx := ht x List.mem_cons_self
    rw [← (List.cons.inj h).1, hc] at hx
    cases hx
  | x :: s, [], _, _, _, _, hs, _, _, hd, h => by
    have hx := hs x List.mem_cons_self
    rw [(List.cons.inj h).1, hd] at hx
    cases hx
  | x :: s, y :: t, _, _, _, _, hs, ht, hc, hd, h => by
    obtain ⟨rfl, hrest⟩ := List.cons.inj h
    obtain ⟨rfl, hr⟩ := cut_run (fun z hz => hs z (List.mem_cons_of_mem x hz))
      (fun z hz => ht z (List.mem_cons_of_mem x hz)) hc hd hrest
    exact ⟨rfl, hr⟩

/-- So does one that goes on for a while into the text that follows it. -/
theorem cut_before {p : Char → Bool} {s t f r r' : List Char} (hs : ∀ x ∈ s, p x = true)
    (ht : ∀ x ∈ t, p x = true) (hf : f.any (fun c => !p c) = true)
    (h : s ++ (f ++ r) = t ++ (f ++ r')) : s = t ∧ f ++ r = f ++ r' := by
  induction f generalizing s t with
  | nil => cases hf
  | cons c f ih =>
    by_cases hc : p c = true
    · rw [List.any_cons, hc, Bool.not_true, Bool.false_or] at hf
      have hsnoc : ∀ {u : List Char}, (∀ x ∈ u, p x = true) → ∀ x ∈ u ++ [c], p x = true := by
        intro u hu x hx
        rcases List.mem_append.1 hx with hx | hx
        · exact hu x hx
        · rw [List.mem_singleton.1 hx]
          exact hc
      have h' : (s ++ [c]) ++ (f ++ r) = (t ++ [c]) ++ (f ++ r') := by simpa using h
      obtain ⟨hst, hrest⟩ := ih (hsnoc hs) (hsnoc ht) hf h'
      exact ⟨List.append_cancel_right hst, congrArg (c :: ·) hrest⟩
    · rw [Bool.not_eq_true] at hc
      exact cut_run hs ht hc hc h

/-! ## Literals -/

/-- A verbatim string ends at the quote that no other quote follows. -/
theorem cut_doubleQuotes : ∀ {s t r r' : List Char}, r.head? ≠ some '"' → r'.head? ≠ some '"' →
    doubleQuotes s ++ '"' :: r = doubleQuotes t ++ '"' :: r' → s = t ∧ r = r'
  | [], [], _, _, _, _, h => ⟨rfl, (List.cons.inj h).2⟩
  | [], c :: t, r, r', hr, _, h => by
    rw [doubleQuotes, doubleQuotes] at h
    split at h
    · exact absurd (by rw [(List.cons.inj h).2]; rfl) hr
    · rename_i hc
      exact absurd (List.cons.inj h).1.symm (by simpa using hc)
  | c :: s, [], r, r', _, hr', h => by
    rw [doubleQuotes, doubleQuotes] at h
    split at h
    · exact absurd (by rw [← (List.cons.inj h).2]; rfl) hr'
    · rename_i hc
      exact absurd (List.cons.inj h).1 (by simpa using hc)
  | c :: s, d :: t, r, r', hr, hr', h => by
    rw [doubleQuotes, doubleQuotes] at h
    by_cases hc : c = '"' <;> by_cases hd : d = '"'
    · simp only [hc, hd, beq_self_eq_true, if_true, List.cons_append, List.cons.injEq, true_and] at h
      obtain ⟨rfl, hrest⟩ := cut_doubleQuotes hr hr' h
      exact ⟨by rw [hc, hd], hrest⟩
    · simp [hc, hd, Ne.symm hd] at h
    · simp [hc, hd] at h
    · simp only [beq_iff_eq, hc, hd, if_false, List.cons_append, List.cons.injEq] at h
      obtain ⟨rfl, h⟩ := h
      obtain ⟨rfl, hrest⟩ := cut_doubleQuotes hr hr' h
      exact ⟨rfl, hrest⟩

/-- Whether a literal ends in front of the character. -/
def endsLiteral (c : Char) : Bool := c != '"' && !isPathPart c

theorem verbatim_ne_word {s t r r' : List Char} (ht : IsWord t) :
    verbatimChars s ++ r ≠ t ++ r' := by
  intro h
  obtain ⟨hne, hpart⟩ := ht
  cases t with
  | nil => exact hne rfl
  | cons c t =>
    have hc := hpart c List.mem_cons_self
    rw [← (List.cons.inj h).1] at hc
    cases hc

theorem cut_literal {s t r r' : List Char} {c d : Char}
    (hs : (∃ u, s = verbatimChars u) ∨ IsWord s) (ht : (∃ u, t = verbatimChars u) ∨ IsWord t)
    (hc : endsLiteral c = true) (hd : endsLiteral d = true)
    (h : s ++ c :: r = t ++ d :: r') : s = t ∧ c :: r = d :: r' := by
  simp only [endsLiteral, Bool.and_eq_true, bne_iff_ne, ne_eq, Bool.not_eq_true'] at hc hd
  rcases hs with ⟨s, rfl⟩ | hs <;> rcases ht with ⟨t, rfl⟩ | ht
  · simp only [verbatimChars, List.cons_append, List.append_assoc, List.nil_append, List.cons.injEq,
      true_and] at h
    obtain ⟨rfl, hrest⟩ := cut_doubleQuotes (by simpa using hc.1) (by simpa using hd.1) h
    exact ⟨rfl, hrest⟩
  · exact absurd h (verbatim_ne_word ht)
  · exact absurd h.symm (verbatim_ne_word hs)
  · exact cut_run hs.2 ht.2 hc.2 hd.2 h

/-! ## Pieces -/

theorem toList_written_cons (p : Piece) (ps : List Piece) :
    (written (p :: ps)).toList = p.string.toList ++ (written ps).toList := by
  rw [written, String.toList_append]

theorem toList_written_append (ps qs : List Piece) :
    (written (ps ++ qs)).toList = (written ps).toList ++ (written qs).toList := by
  rw [written_append, String.toList_append]

/-- Texts that begin with different characters are different. -/
theorem written_ne {s s' : String} {c d : Char} {u u' : List Char} (hs : s.toList = c :: u)
    (hs' : s'.toList = d :: u') (hne : c ≠ d) (ps qs : List Piece) (r r' : List Char) :
    (written (.fixed s :: ps)).toList ++ r ≠ (written (.fixed s' :: qs)).toList ++ r' := by
  intro h
  rw [toList_written_cons, toList_written_cons, Piece.string, Piece.string, hs, hs'] at h
  exact hne (List.cons.inj h).1

/-- The value that a piece holds. -/
def Piece.datum : Piece → Option Literal
  | .value v => some v.toLiteral
  | .flag b => some (.bool b)
  | _ => none

theorem datum_of_shape {p : Piece} (hp : p.shape = .value) :
    ∃ l, p.datum = some l ∧ isDatum l = true ∧ p.string = literal l := by
  cases p with
  | value v => exact ⟨v.toLiteral, rfl, isDatum_toLiteral v, rfl⟩
  | flag b => exact ⟨.bool b, rfl, rfl, rfl⟩
  | _ => cases hp

theorem datum_of_shape_ne {p : Piece} (hp : p.shape ≠ .value) : p.datum = none := by
  cases p with
  | value v => exact absurd rfl hp
  | flag b => exact absurd rfl hp
  | _ => rfl

theorem datum_eq {p q : Piece} (hp : p.shape = .value) (hq : q.shape = .value)
    (h : p.string = q.string) : p.datum = q.datum := by
  obtain ⟨l, hl, hdatum, hliteral⟩ := datum_of_shape hp
  obtain ⟨m, hm, hdatum', hliteral'⟩ := datum_of_shape hq
  rw [hl, hm, literal_inj hdatum hdatum' (hliteral.symm.trans (h.trans hliteral'))]

def leading : List Shape → List Char
  | .fixed s :: ss => s ++ leading ss
  | _ => []

/-- Whether what follows shows where something of the shape ends. -/
def Shape.endsBefore (ss : List Shape) : Shape → Bool
  | .fixed _ => true
  | .name => (leading ss).any fun c => !isSupportPart c
  | .value => (leading ss).head?.any endsLiteral
  | .comment => (leading ss).any fun c => !(c != '<')

/-- After every shape there is something that shows where it ends. -/
def delimited : List Shape → Bool
  | [] => true
  | s :: ss => s.endsBefore ss && delimited ss

/-- A text begins with the fixed text at its start. -/
theorem written_eq_leading : ∀ (ps : List Piece) (r : List Char),
    ∃ t, (written ps).toList ++ r = leading (ps.map Piece.shape) ++ t
  | [], r => ⟨r, rfl⟩
  | p :: ps, r => by
    cases hp : p.shape with
    | fixed s =>
      obtain ⟨t, ht⟩ := written_eq_leading ps r
      refine ⟨t, ?_⟩
      rw [toList_written_cons, List.append_assoc, ht, toList_of_shape hp, List.map_cons, hp, leading,
        List.append_assoc]
    | _ => exact ⟨_, by rw [List.map_cons, hp]; rfl⟩

/-- **One piece can be told from what follows it.** -/
theorem cut_piece {p q : Piece} {ss : List Shape} {t t' : List Char} (hshape : p.shape = q.shape)
    (hends : p.shape.endsBefore ss = true)
    (h : p.string.toList ++ (leading ss ++ t) = q.string.toList ++ (leading ss ++ t')) :
    p.datum = q.datum ∧ leading ss ++ t = leading ss ++ t' := by
  cases hp : p.shape with
  | fixed s =>
    have hq := hshape ▸ hp
    rw [toList_of_shape hp, toList_of_shape hq] at h
    exact ⟨by rw [datum_of_shape_ne (by simp [hp]), datum_of_shape_ne (by simp [hq])],
      List.append_cancel_left h⟩
  | name =>
    have hq := hshape ▸ hp
    rw [hp] at hends
    exact ⟨by rw [datum_of_shape_ne (by simp [hp]), datum_of_shape_ne (by simp [hq])],
      (cut_before (fun _ => isSupportPart_of_shape hp) (fun _ => isSupportPart_of_shape hq) hends
        h).2⟩
  | value =>
    have hq := hshape ▸ hp
    rw [hp] at hends
    cases hl : leading ss with
    | nil =>
      rw [Shape.endsBefore, hl] at hends
      cases hends
    | cons c f =>
      rw [Shape.endsBefore, hl] at hends
      rw [hl] at h
      obtain ⟨hstring, hrest⟩ := cut_literal (verbatim_or_isWord_of_shape hp)
        (verbatim_or_isWord_of_shape hq) hends hends h
      exact ⟨datum_eq hp hq (String.toList_inj.1 hstring), hrest⟩
  | comment =>
    have hq := hshape ▸ hp
    rw [hp] at hends
    have hne : ∀ {p : Piece}, p.shape = .comment → ∀ c ∈ p.string.toList, (c != '<') = true := by
      intro p hp c hc
      obtain ⟨text, htext⟩ := docChars_of_shape hp
      rw [htext] at hc
      rw [bne_iff_ne]
      rintro rfl
      exact lt_not_mem_docChars text hc
    exact ⟨by rw [datum_of_shape_ne (by simp [hp]), datum_of_shape_ne (by simp [hq])],
      (cut_before (hne hp) (hne hq) hends h).2⟩

/-- The two have the same shapes, which are delimited. -/
def Alike (ps qs : List Piece) : Prop :=
  ps.map Piece.shape = qs.map Piece.shape ∧ delimited (ps.map Piece.shape) = true

theorem alike_of_spells {ps qs : List Piece} {ss : List Shape} (hp : Spells ps ss)
    (hq : Spells qs ss) (hd : delimited ss = true) : Alike ps qs :=
  ⟨hp.map_shape.trans hq.map_shape.symm, hp.map_shape ▸ hd⟩

/-- **Pieces of delimited shapes are read back**: their values, and the text that follows. -/
theorem data_eq_of_alike : ∀ {ps qs : List Piece} {r r' : List Char}, Alike ps qs →
    (written ps).toList ++ r = (written qs).toList ++ r' →
    ps.map Piece.datum = qs.map Piece.datum ∧ r = r'
  | [], [], _, _, _, h => ⟨rfl, h⟩
  | [], q :: qs, _, _, halike, _ => by cases halike.1
  | p :: ps, [], _, _, halike, _ => by cases halike.1
  | p :: ps, q :: qs, r, r', ⟨hshape, hd⟩, h => by
    rw [List.map_cons, List.map_cons, List.cons.injEq] at hshape
    rw [List.map_cons, delimited, Bool.and_eq_true] at hd
    rw [toList_written_cons, toList_written_cons, List.append_assoc, List.append_assoc] at h
    obtain ⟨t, ht⟩ := written_eq_leading ps r
    obtain ⟨t', ht'⟩ := written_eq_leading qs r'
    rw [← hshape.2] at ht'
    rw [ht, ht'] at h
    obtain ⟨hdatum, hrest⟩ := cut_piece hshape.1 hd.1 h
    rw [← ht, ← ht'] at hrest
    obtain ⟨hdata, hr⟩ := data_eq_of_alike ⟨hshape.2, hd.2⟩ hrest
    exact ⟨by rw [List.map_cons, List.map_cons, hdatum, hdata], hr⟩

theorem toList_written_append_append (ps qs : List Piece) (r : List Char) :
    (written (ps ++ qs)).toList ++ r = (written ps).toList ++ ((written qs).toList ++ r) := by
  rw [toList_written_append, List.append_assoc]

theorem cut_append {ps qs ps' qs' : List Piece} {r r' : List Char} (halike : Alike ps ps')
    (h : (written (ps ++ qs)).toList ++ r = (written (ps' ++ qs')).toList ++ r') :
    ps.map Piece.datum = ps'.map Piece.datum ∧
      (written qs).toList ++ r = (written qs').toList ++ r' := by
  rw [toList_written_append_append, toList_written_append_append] at h
  exact data_eq_of_alike halike h

/-- Parts of a text are read back one after the other.  The end of the parts must show: no part
may begin what follows the other parts. -/
theorem cut_flatMap {α γ : Type} {parts parts' : α → List Piece} {m m' : α → γ}
    {ps qs : List Piece} {r r' : List Char}
    (hstep : ∀ a b t t', (written (parts a)).toList ++ t = (written (parts' b)).toList ++ t' →
      m a = m' b ∧ t = t')
    (hp : ∀ b t, (written (parts' b)).toList ++ t ≠ (written ps).toList ++ r)
    (hq : ∀ a t, (written (parts a)).toList ++ t ≠ (written qs).toList ++ r') :
    ∀ {as bs : List α},
      (written (as.flatMap parts ++ ps)).toList ++ r =
        (written (bs.flatMap parts' ++ qs)).toList ++ r' →
      as.map m = bs.map m' ∧ (written ps).toList ++ r = (written qs).toList ++ r'
  | [], [], h => ⟨rfl, h⟩
  | [], b :: bs, h => by
    rw [List.flatMap_cons, List.append_assoc, toList_written_append_append (parts' b)] at h
    exact absurd h.symm (hp b _)
  | a :: as, [], h => by
    rw [List.flatMap_cons, List.append_assoc, toList_written_append_append (parts a)] at h
    exact absurd h (hq a _)
  | a :: as, b :: bs, h => by
    rw [List.flatMap_cons, List.flatMap_cons, List.append_assoc, List.append_assoc,
      toList_written_append_append, toList_written_append_append (parts' b)] at h
    obtain ⟨hm, hrest⟩ := hstep a b _ _ h
    obtain ⟨hms, hrest'⟩ := cut_flatMap hstep hp hq hrest
    exact ⟨by rw [List.map_cons, List.map_cons, hm, hms], hrest'⟩

end PolicyForge.Source
